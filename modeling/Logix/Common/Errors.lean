import Mathlib.Data.Int.Notation
import Mathlib.Data.Nat.Notation

/-!
# The exceptions of the services

`DomainException` collects the exception classes that the modelled services throw, with the
message, status code and error code that each constructor passes on.
-/

namespace Logix

/-- **What an API call can throw.** `error` is a plain `Error`, `typeError` the one that the
runtime throws when it reads a property of `undefined` or `null`. -/
inductive DomainException where
  | error (text : String)
  | typeError (text : String)
  | notFound (entity id : String)
  | forbidden (text : String)
  | conflict (text : String)
  | insufficientInventory (sku : String) (requestedQty availableQty : ℤ)
  | unbalancedLedger (totalDebits totalCredits : ℤ)
  deriving DecidableEq, Repr

namespace DomainException

/-- `message`. -/
def message : DomainException → String
  | error text | typeError text | forbidden text | conflict text => text
  | notFound entity id =>
    if id = "" then s!"{entity} was not found." else s!"{entity} with identifier '{id}' was not found."
  | insufficientInventory sku requestedQty availableQty =>
    s!"Insufficient inventory for SKU '{sku}'. Requested: {requestedQty}, Available: {availableQty}."
  | unbalancedLedger totalDebits totalCredits =>
    s!"Double-entry ledger invariant violated: Debits ({totalDebits}) do not equal Credits ({totalCredits})."

/-- `statusCode`, where the class sets one. -/
def statusCode : DomainException → Option ℕ
  | error _ | typeError _ => none
  | notFound _ _ => some 404
  | forbidden _ => some 403
  | conflict _ => some 409
  | insufficientInventory _ _ _ | unbalancedLedger _ _ => some 422

/-- `code`, where the class sets one. -/
def code : DomainException → Option String
  | error _ | typeError _ => none
  | notFound _ _ => some "ENTITY_NOT_FOUND"
  | forbidden _ => some "FORBIDDEN"
  | conflict _ => some "CONFLICT_STATE"
  | insufficientInventory _ _ _ => some "INSUFFICIENT_INVENTORY"
  | unbalancedLedger _ _ => some "UNBALANCED_LEDGER_TRANSACTION"

end DomainException

/-- `UnauthorizedException`: status 401, code UNAUTHORIZED. -/
structure UnauthorizedException where
  message : String
  deriving DecidableEq, Repr

end Logix
