import Logix.Async.Program
import Logix.Common.Errors
import Logix.Js.Date
import Logix.Js.Uuid

/-!
# Invoices, payments and the ledger

`BillingService` with `DoubleEntryLedgerService`, on `BillingRepository`.

* Entities; the invoices and payments that a call holds are references, that is keys.
* `formatLines`, `postJournalEntry`: the accumulating loop over the lines of a journal, and the
  check of its totals.
* `invoiceEntry`, `paymentEntry`: the two journals that the service posts.
* `BillingCall`: the requests, and what is left of them after each await; `billingProgram`: the
  segments. The environment gives the clock and the generated numbers.

The `createdAt` stamps are left out: no method reads them.
-/

namespace Logix.Billing

open Async

/-! ## Entities -/

/-- `AccountType`. -/
inductive AccountType where
  | ASSET_CASH | ASSET_RECEIVABLES | ASSET_INVENTORY | LIABILITY_PAYABLES
  | LIABILITY_DEFERRED_REVENUE | EQUITY_CAPITAL | EQUITY_RETAINED_EARNINGS | REVENUE_FULFILLMENT
  | REVENUE_SHIPPING | EXPENSE_COGS | EXPENSE_FLEET_FUEL | EXPENSE_PAYMENT_GATEWAY_FEES
  | EXPENSE_WAREHOUSE_OVERHEAD
  deriving DecidableEq, Repr

/-- `InvoiceStatus`. -/
inductive InvoiceStatus where
  | DRAFT | ISSUED | PAID | PARTIALLY_PAID | VOID | OVERDUE | IN_DISPUTE
  deriving DecidableEq, Repr

/-- `PaymentMethodType`. -/
inductive PaymentMethodType where
  | CREDIT_CARD | ACH_BANK_TRANSFER | SEPA_TRANSFER | ESCROW_SETTLEMENT | COMMERCIAL_INVOICE_NET30
  deriving DecidableEq, Repr

/-- `PaymentStatus`. -/
inductive PaymentStatus where
  | INITIATED | AUTHORIZED | CAPTURED | SETTLED | DECLINED | REFUNDED | CHARGEBACK
  deriving DecidableEq, Repr

/-- `referenceType` of a journal. -/
inductive ReferenceType where
  | ORDER | INVOICE | PAYMENT | ADJUSTMENT
  deriving DecidableEq, Repr

/-- `ChartOfAccountEntity`. -/
structure ChartOfAccountEntity where
  id : String
  tenantId : String
  accountNumber : String
  name : String
  type : AccountType
  currency : String
  balanceCents : ℤ
  isActive : Bool
  deriving DecidableEq, Repr

/-- A line of a journal entry, as a caller passes it. -/
structure EntryLine where
  accountId : String
  accountName : String
  debitCents : ℤ
  creditCents : ℤ
  description : String
  deriving DecidableEq, Repr

/-- `JournalEntryLine`. -/
structure JournalEntryLine where
  id : String
  accountId : String
  accountName : String
  debitCents : ℤ
  creditCents : ℤ
  description : String
  deriving DecidableEq, Repr

/-- `JournalTransactionEntity`. -/
structure JournalTransactionEntity where
  id : String
  tenantId : String
  transactionNumber : String
  referenceType : ReferenceType
  referenceId : String
  description : String
  totalAmountCents : ℤ
  lines : List JournalEntryLine
  postedAt : JsDate
  deriving DecidableEq, Repr

/-- `InvoiceLineItemEntity`. -/
structure InvoiceLineItemEntity where
  id : String
  description : String
  quantity : ℤ
  unitPriceCents : ℤ
  totalCents : ℤ
  deriving DecidableEq, Repr

/-- `InvoiceEntity`. -/
structure InvoiceEntity where
  id : String
  tenantId : String
  invoiceNumber : String
  orderId : String
  customerId : String
  status : InvoiceStatus
  lines : List InvoiceLineItemEntity
  subtotalCents : ℤ
  taxCents : ℤ
  totalCents : ℤ
  amountPaidCents : ℤ
  amountDueCents : ℤ
  dueDate : JsDate
  paidAt : Option JsDate
  deriving DecidableEq, Repr

/-- `PaymentTransactionEntity`; the amount with its currency. -/
structure PaymentTransactionEntity where
  id : String
  tenantId : String
  invoiceId : String
  orderId : String
  amount : ℤ × String
  paymentMethod : PaymentMethodType
  status : PaymentStatus
  gatewayTransactionRef : String
  deriving DecidableEq, Repr

/-- An item of a `CreateInvoiceDTO`, as the schema admits it. -/
structure InvoiceItem where
  description : String
  quantity : ℤ
  unitPriceCents : ℤ
  quantity_pos : 0 < quantity
  unitPriceCents_pos : 0 < unitPriceCents
  deriving DecidableEq, Repr

/-- `CreateInvoiceDTO`, as `CreateInvoiceSchema` admits it (any strings as ids). -/
structure CreateInvoiceDTO where
  tenantId : String
  orderId : String
  customerId : String
  subtotalCents : ℤ
  taxCents : ℤ
  items : List InvoiceItem
  dueDateDays : ℤ
  subtotalCents_pos : 0 < subtotalCents
  taxCents_nonneg : 0 ≤ taxCents
  items_min : items ≠ []
  dueDateDays_pos : 0 < dueDateDays
  deriving DecidableEq, Repr

/-- `ProcessPaymentDTO`, as `ProcessPaymentSchema` admits it (any strings as ids). -/
structure ProcessPaymentDTO where
  tenantId : String
  invoiceId : String
  orderId : String
  amountCents : ℤ
  currency : String
  paymentMethod : PaymentMethodType
  amountCents_pos : 0 < amountCents
  deriving DecidableEq, Repr

/-- The arguments of `postJournalEntry`. -/
structure JournalEntry where
  tenantId : String
  referenceType : ReferenceType
  referenceId : String
  description : String
  lines : List EntryLine
  deriving DecidableEq, Repr

/-- What a segment reads from outside: the clock, and the numbers that are generated from it and
from random tokens. -/
structure BillingInput where
  now : JsDate
  invoiceNumber : String
  gatewayRef : String
  txNumber : String
  deriving DecidableEq, Repr

/-- **The repository.** `draws` counts the UUIDs drawn so far; the keys of the invoices and of the
payments are among them. -/
structure BillingRepository (u : UuidSource) where
  accounts : JsMap String ChartOfAccountEntity
  journals : List JournalTransactionEntity
  invoices : JsMap String InvoiceEntity
  payments : JsMap String PaymentTransactionEntity
  draws : ℕ
  accounts_issued : u.Issued draws accounts
  invoices_issued : u.Issued draws invoices
  payments_issued : u.Issued draws payments

namespace BillingRepository

variable {u : UuidSource}

/-! ## Writes -/

/-- Draw `n` UUIDs. -/
def draw (r : BillingRepository u) (n : ℕ) : BillingRepository u where
  accounts := r.accounts
  journals := r.journals
  invoices := r.invoices
  payments := r.payments
  draws := r.draws + n
  accounts_issued := r.accounts_issued.mono (Nat.le_add_right _ _)
  invoices_issued := r.invoices_issued.mono (Nat.le_add_right _ _)
  payments_issued := r.payments_issued.mono (Nat.le_add_right _ _)

/-- Store an account under a newly drawn id. -/
def insertAccount (r : BillingRepository u) (entity : String → ChartOfAccountEntity) :
    BillingRepository u where
  accounts := r.accounts.set (u.draw r.draws) (entity (u.draw r.draws))
  journals := r.journals
  invoices := r.invoices
  payments := r.payments
  draws := r.draws + 1
  accounts_issued := r.accounts_issued.set_draw _
  invoices_issued := r.invoices_issued.mono (Nat.le_succ _)
  payments_issued := r.payments_issued.mono (Nat.le_succ _)

/-- `createInvoice` of the repository. -/
def insertInvoice (r : BillingRepository u) (entity : String → InvoiceEntity) :
    BillingRepository u where
  accounts := r.accounts
  journals := r.journals
  invoices := r.invoices.set (u.draw r.draws) (entity (u.draw r.draws))
  payments := r.payments
  draws := r.draws + 1
  accounts_issued := r.accounts_issued.mono (Nat.le_succ _)
  invoices_issued := r.invoices_issued.set_draw _
  payments_issued := r.payments_issued.mono (Nat.le_succ _)

/-- `recordPayment`. -/
def recordPayment (r : BillingRepository u) (entity : String → PaymentTransactionEntity) :
    BillingRepository u where
  accounts := r.accounts
  journals := r.journals
  invoices := r.invoices
  payments := r.payments.set (u.draw r.draws) (entity (u.draw r.draws))
  draws := r.draws + 1
  accounts_issued := r.accounts_issued.mono (Nat.le_succ _)
  invoices_issued := r.invoices_issued.mono (Nat.le_succ _)
  payments_issued := r.payments_issued.set_draw _

/-- `recordJournalTransaction`. -/
def recordJournalTransaction (r : BillingRepository u)
    (entity : String → JournalTransactionEntity) : BillingRepository u where
  accounts := r.accounts
  journals := r.journals ++ [entity (u.draw r.draws)]
  invoices := r.invoices
  payments := r.payments
  draws := r.draws + 1
  accounts_issued := r.accounts_issued.mono (Nat.le_succ _)
  invoices_issued := r.invoices_issued.mono (Nat.le_succ _)
  payments_issued := r.payments_issued.mono (Nat.le_succ _)

/-- Mutate the invoice behind `ref`. -/
def mutateInvoice (r : BillingRepository u) (ref : String) (f : InvoiceEntity → InvoiceEntity) :
    BillingRepository u where
  accounts := r.accounts
  journals := r.journals
  invoices := r.invoices.modify ref f
  payments := r.payments
  draws := r.draws
  accounts_issued := r.accounts_issued
  invoices_issued := r.invoices_issued.modify ref f
  payments_issued := r.payments_issued

/-! ## The chart of accounts -/

/-- The accounts that `seedDefaultAccounts` creates. -/
def defaultAccounts : List (String × String × AccountType) :=
  [("1010", "Cash and Cash Equivalents", .ASSET_CASH),
    ("1200", "Accounts Receivable", .ASSET_RECEIVABLES),
    ("1300", "Inventory Asset", .ASSET_INVENTORY),
    ("2010", "Accounts Payable", .LIABILITY_PAYABLES),
    ("4010", "Supply Chain Fulfillment Revenue", .REVENUE_FULFILLMENT),
    ("5010", "Cost of Goods Sold (COGS)", .EXPENSE_COGS)]

/-- The account that `seedDefaultAccounts` creates for one line of its list. -/
def defaultAccount (tenantId : String) (acc : String × String × AccountType) (id : String) :
    ChartOfAccountEntity where
  id := id
  tenantId := tenantId
  accountNumber := acc.1
  name := acc.2.1
  type := acc.2.2
  currency := "USD"
  balanceCents := 0
  isActive := true

/-- `seedDefaultAccounts(tenantId)`. -/
def seedDefaultAccounts (r : BillingRepository u) (tenantId : String) : BillingRepository u :=
  defaultAccounts.foldl (fun r acc => r.insertAccount (defaultAccount tenantId acc)) r

/-- A repository without accounts. -/
def blank (u : UuidSource) : BillingRepository u where
  accounts := .empty
  journals := []
  invoices := .empty
  payments := .empty
  draws := 0
  accounts_issued := .empty u 0
  invoices_issued := .empty u 0
  payments_issued := .empty u 0

/-- `new BillingRepository()`. -/
def new (u : UuidSource) : BillingRepository u := (blank u).seedDefaultAccounts "global-tenant"

/-- A new repository with the default accounts of some tenants. -/
def seeded (u : UuidSource) (tenants : List String) : BillingRepository u :=
  tenants.foldl seedDefaultAccounts (new u)

/-- `listAccounts(tenantId)`. -/
def listAccounts (r : BillingRepository u) (tenantId : String) : List ChartOfAccountEntity :=
  r.accounts.values.filter fun a => a.tenantId = tenantId ∨ a.tenantId = "global-tenant"

/-- `listJournals(tenantId)`. -/
def listJournals (r : BillingRepository u) (tenantId : String) : List JournalTransactionEntity :=
  r.journals.filter fun j => j.tenantId = tenantId

/-- `listInvoices(tenantId)`. -/
def listInvoices (r : BillingRepository u) (tenantId : String) : List InvoiceEntity :=
  r.invoices.values.filter fun i => i.tenantId = tenantId

/-! ## `postJournalEntry` -/

/-- The loop over the lines: total debits, total credits and the formatted lines. -/
def formatLines (lineId : ℕ → String) (lines : List EntryLine) : ℤ × ℤ × List JournalEntryLine :=
  lines.foldl
    (fun (totalDebits, totalCredits, formattedLines) line =>
      (totalDebits + line.debitCents, totalCredits + line.creditCents,
        formattedLines ++
          [{ id := lineId formattedLines.length
             accountId := line.accountId
             accountName := line.accountName
             debitCents := line.debitCents
             creditCents := line.creditCents
             description := line.description }]))
    (0, 0, [])

/-- `postJournalEntry`. -/
def postJournalEntry (r : BillingRepository u) (env : BillingInput) (a : JournalEntry) :
    BillingRepository u × Except DomainException JournalTransactionEntity :=
  let (totalDebits, totalCredits, formattedLines) :=
    formatLines (fun i => u.draw (r.draws + i)) a.lines
  let r' := r.draw a.lines.length
  if totalDebits ≠ totalCredits then (r', .error (.unbalancedLedger totalDebits totalCredits))
  else
    let entity (id : String) : JournalTransactionEntity :=
      { id := id
        tenantId := a.tenantId
        transactionNumber := env.txNumber
        referenceType := a.referenceType
        referenceId := a.referenceId
        description := a.description
        totalAmountCents := totalDebits
        lines := formattedLines
        postedAt := env.now }
    (r'.recordJournalTransaction entity, .ok (entity (u.draw r'.draws)))

end BillingRepository

/-! ## The service -/

/-- The invoice that `createInvoice` stores; `lineIds` numbers the UUIDs of its lines. -/
def newInvoice (dto : CreateInvoiceDTO) (env : BillingInput) (lineIds : ℕ → String) (id : String) :
    InvoiceEntity where
  id := id
  tenantId := dto.tenantId
  invoiceNumber := env.invoiceNumber
  orderId := dto.orderId
  customerId := dto.customerId
  status := .ISSUED
  lines := dto.items.mapIdx fun i item =>
    { id := lineIds i
      description := item.description
      quantity := item.quantity
      unitPriceCents := item.unitPriceCents
      totalCents := item.quantity * item.unitPriceCents }
  subtotalCents := dto.subtotalCents
  taxCents := dto.taxCents
  totalCents := dto.subtotalCents + dto.taxCents
  amountPaidCents := 0
  amountDueCents := dto.subtotalCents + dto.taxCents
  dueDate := env.now + dto.dueDateDays * 24 * 60 * 60 * 1000
  paidAt := none

/-- The payment that `processPayment` records. -/
def newPayment (dto : ProcessPaymentDTO) (env : BillingInput) (id : String) :
    PaymentTransactionEntity where
  id := id
  tenantId := dto.tenantId
  invoiceId := dto.invoiceId
  orderId := dto.orderId
  amount := (dto.amountCents, dto.currency)
  paymentMethod := dto.paymentMethod
  status := .CAPTURED
  gatewayTransactionRef := env.gatewayRef

/-- What `processPayment` does to its invoice. -/
def InvoiceEntity.pay (amountCents : ℤ) (now : JsDate) (i : InvoiceEntity) : InvoiceEntity :=
  let amountPaidCents := i.amountPaidCents + amountCents
  let amountDueCents := max 0 (i.totalCents - amountPaidCents)
  if amountDueCents = 0 then
    { i with
      amountPaidCents := amountPaidCents
      amountDueCents := amountDueCents
      status := .PAID
      paidAt := some now }
  else
    { i with
      amountPaidCents := amountPaidCents
      amountDueCents := amountDueCents
      status := .PARTIALLY_PAID }

/-- `accounts.find(a => a.accountNumber === number) || accounts[i]`. -/
def findAccount (accounts : List ChartOfAccountEntity) (number : String) (i : ℕ) :
    Option ChartOfAccountEntity :=
  (accounts.find? fun a => a.accountNumber = number).or accounts[i]?

/-- The journal of an invoice, when both accounts are there. -/
def invoiceEntry (dto : CreateInvoiceDTO) (invoiceNumber invoiceId : String)
    (accounts : List ChartOfAccountEntity) : Option JournalEntry := do
  let arAccount ← findAccount accounts "1200" 0
  let revAccount ← findAccount accounts "4010" 1
  let totalCents := dto.subtotalCents + dto.taxCents
  return {
    tenantId := dto.tenantId
    referenceType := .INVOICE
    referenceId := invoiceId
    description := s!"Invoice {invoiceNumber} issued for Order {dto.orderId}"
    lines := [
      { accountId := arAccount.id, accountName := arAccount.name, debitCents := totalCents
        creditCents := 0, description := "Accounts Receivable Debit" },
      { accountId := revAccount.id, accountName := revAccount.name, debitCents := 0
        creditCents := totalCents, description := "Fulfillment Revenue Credit" }] }

/-- The journal of a payment, when both accounts are there. -/
def paymentEntry (dto : ProcessPaymentDTO) (invoiceNumber paymentId : String)
    (accounts : List ChartOfAccountEntity) : Option JournalEntry := do
  let cashAccount ← findAccount accounts "1010" 0
  let arAccount ← findAccount accounts "1200" 1
  return {
    tenantId := dto.tenantId
    referenceType := .PAYMENT
    referenceId := paymentId
    description := s!"Payment captured for Invoice {invoiceNumber}"
    lines := [
      { accountId := cashAccount.id, accountName := cashAccount.name
        debitCents := dto.amountCents, creditCents := 0, description := "Cash Inflow Debit" },
      { accountId := arAccount.id, accountName := arAccount.name, debitCents := 0
        creditCents := dto.amountCents, description := "Accounts Receivable Credit" }] }

/-- Reading a property of a missing account. -/
def missingAccount : DomainException :=
  .typeError "Cannot read properties of undefined (reading 'id')"

/-! ## The requests as a program -/

/-- **The requests**, at their start and after each await. -/
inductive BillingCall where
  | createInvoice (dto : CreateInvoiceDTO)
  /-- `createInvoice` after `billingRepo.createInvoice`. -/
  | invoiceStored (dto : CreateInvoiceDTO) (invoiceNumber invoiceId : String)
  /-- `createInvoice` after `listAccounts`. -/
  | invoiceAccounts (dto : CreateInvoiceDTO) (invoiceNumber invoiceId : String)
      (accounts : List ChartOfAccountEntity)
  /-- `createInvoice` after `postJournalEntry`. -/
  | invoicePosted (invoiceId : String)
  | processPayment (dto : ProcessPaymentDTO)
  /-- `processPayment` after `findInvoiceById`. -/
  | paymentInvoiceFound (dto : ProcessPaymentDTO) (invoice : Option String)
  /-- `processPayment` after `recordPayment`. -/
  | paymentStored (dto : ProcessPaymentDTO) (invoice paymentId : String)
  /-- `processPayment` after `listAccounts`. -/
  | paymentAccounts (dto : ProcessPaymentDTO) (invoice paymentId : String)
      (accounts : List ChartOfAccountEntity)
  /-- `processPayment` after `postJournalEntry`. -/
  | paymentPosted (invoice paymentId : String)
  | postJournalEntry (a : JournalEntry)
  deriving DecidableEq, Repr

/-- How a request settles; invoices and payments by their ids. -/
inductive BillingOutcome where
  | invoiced (invoiceId : String)
  | paid (paymentId invoiceId : String)
  | posted (journal : JournalTransactionEntity)
  | rejected (e : DomainException)
  deriving DecidableEq, Repr

variable {u : UuidSource}

/-- Post the journal of a request, which then waits as `next`; a journal without its accounts is a
`TypeError`. -/
def postEntry (r : BillingRepository u) (env : BillingInput) (entry : Option JournalEntry)
    (next : BillingCall) : Segment (BillingRepository u) BillingCall BillingOutcome :=
  match entry with
  | none => { heap := r, settled := [.rejected missingAccount] }
  | some a =>
    match r.postJournalEntry env a with
    | (r', .ok _) => { heap := r', waiting := [next] }
    | (r', .error e) => { heap := r', settled := [.rejected e] }

/-- **The requests, cut at their awaits.** -/
def billingProgram (u : UuidSource) :
    Program (BillingRepository u) BillingCall BillingInput BillingOutcome where
  run k env r :=
    match k with
    | .createInvoice dto =>
      let r' := r.draw dto.items.length
      { heap := r'.insertInvoice (newInvoice dto env fun i => u.draw (r.draws + i))
        waiting := [.invoiceStored dto env.invoiceNumber (u.draw r'.draws)] }
    | .invoiceStored dto invoiceNumber invoiceId =>
      { heap := r
        waiting := [.invoiceAccounts dto invoiceNumber invoiceId (r.listAccounts dto.tenantId)] }
    | .invoiceAccounts dto invoiceNumber invoiceId accounts =>
      postEntry r env (invoiceEntry dto invoiceNumber invoiceId accounts) (.invoicePosted invoiceId)
    | .invoicePosted invoiceId => { heap := r, settled := [.invoiced invoiceId] }
    | .processPayment dto =>
      { heap := r
        waiting := [.paymentInvoiceFound dto
          ((r.invoices.get dto.invoiceId).map fun _ => dto.invoiceId)] }
    | .paymentInvoiceFound dto none =>
      { heap := r, settled := [.rejected (.notFound "Invoice" dto.invoiceId)] }
    | .paymentInvoiceFound dto (some invoice) =>
      { heap := r.recordPayment (newPayment dto env)
        waiting := [.paymentStored dto invoice (u.draw r.draws)] }
    | .paymentStored dto invoice paymentId =>
      let r' := r.mutateInvoice invoice (InvoiceEntity.pay dto.amountCents env.now)
      { heap := r'
        waiting := [.paymentAccounts dto invoice paymentId (r'.listAccounts dto.tenantId)] }
    | .paymentAccounts dto invoice paymentId accounts =>
      let invoiceNumber := ((r.invoices.get invoice).map InvoiceEntity.invoiceNumber).getD ""
      postEntry r env (paymentEntry dto invoiceNumber paymentId accounts)
        (.paymentPosted invoice paymentId)
    | .paymentPosted invoice paymentId => { heap := r, settled := [.paid paymentId invoice] }
    | .postJournalEntry a =>
      match r.postJournalEntry env a with
      | (r', .ok journal) => { heap := r', settled := [.posted journal] }
      | (r', .error e) => { heap := r', settled := [.rejected e] }

end Logix.Billing
