import Mathlib.Data.List.Nodup
import Mathlib.Data.Rat.Defs
import Mathlib.Logic.Basic
import Logix.Js.Date
import Logix.Spec.FirstMatch

/-!
# Reconciliation of bank statements

Each statement line is matched with the first open invoice that suits it, by the amount, by the
narrative, or by the reference. The open invoices stay as they are.

* `MultiBankStatementReconciliationEngine.reconcileStatements`: the code;
* `SettledOnce`: no invoice is in two pairs, and each line is in a pair or unmatched;
  **`settledOnce_iff`**: when this holds;
* `ReferencesDecide`: an exact reference decides, in whatever order the invoices stand;
  **`referencesDecide_iff`**: when this holds.
-/

namespace Logix.Billing

open Spec

/-- `IBankStatementLine`. -/
structure BankStatementLine where
  statementLineId : String
  bankAccountNumber : String
  bookingDate : Option JsDate
  amountUSD : ℚ
  narrativeText : JsString
  referenceNumber : JsString
  deriving DecidableEq, Repr

/-- `IUnsettledInvoice`: what the engine reads. -/
structure UnsettledInvoice where
  invoiceId : JsString
  outstandingBalanceUSD : ℚ
  deriving DecidableEq, Repr

/-- An entry of `matchedPairs`. -/
structure MatchedPair where
  statementId : String
  invoiceId : JsString
  amount : ℚ
  deriving DecidableEq, Repr

/-- What `reconcileStatements` returns. -/
structure Reconciliation where
  matchedPairs : List MatchedPair
  unmatchedLines : List BankStatementLine
  deriving DecidableEq, Repr

namespace MultiBankStatementReconciliationEngine

/-- `s.includes(t)`. -/
def includes (s t : JsString) : Bool := s.tails.any fun u => t.isPrefixOf u

/-- The test of an open invoice. -/
def suits (line : BankStatementLine) (inv : UnsettledInvoice) : Bool :=
  inv.outstandingBalanceUSD == line.amountUSD || includes line.narrativeText inv.invoiceId ||
    line.referenceNumber == inv.invoiceId

/-- The body of the loop. -/
def reconcileLine (openInvoices : List UnsettledInvoice) (r : Reconciliation)
    (line : BankStatementLine) : Reconciliation :=
  match firstMatch suits openInvoices line with
  | some inv =>
    { r with
      matchedPairs := r.matchedPairs ++ [⟨line.statementLineId, inv.invoiceId, line.amountUSD⟩] }
  | none => { r with unmatchedLines := r.unmatchedLines ++ [line] }

/-- **`reconcileStatements`**. -/
def reconcileStatements (statementLines : List BankStatementLine)
    (openInvoices : List UnsettledInvoice) : Reconciliation :=
  statementLines.foldl (reconcileLine openInvoices) ⟨[], []⟩

end MultiBankStatementReconciliationEngine

open MultiBankStatementReconciliationEngine

/-! ## What the loop computes -/

section Loop

variable (invoices : List UnsettledInvoice)

/-- The pair of a line. -/
def pairOf (line : BankStatementLine) : Option MatchedPair :=
  (firstMatch suits invoices line).map fun inv =>
    ⟨line.statementLineId, inv.invoiceId, line.amountUSD⟩

theorem foldl_reconcileLine (lines : List BankStatementLine) (r : Reconciliation) :
    lines.foldl (reconcileLine invoices) r =
      ⟨r.matchedPairs ++ lines.filterMap (pairOf invoices),
        r.unmatchedLines ++ lines.filter fun line => (pairOf invoices line).isNone⟩ := by
  induction lines generalizing r with
  | nil => simp
  | cons line lines ih =>
    rw [List.foldl_cons, ih, reconcileLine]
    cases h : firstMatch suits invoices line with
    | none =>
      have hpair : pairOf invoices line = none := by rw [pairOf, h, Option.map_none]
      simp [hpair]
    | some inv =>
      have hpair : pairOf invoices line =
          some ⟨line.statementLineId, inv.invoiceId, line.amountUSD⟩ := by
        rw [pairOf, h, Option.map_some]
      simp [hpair]

theorem reconcileStatements_eq (lines : List BankStatementLine) :
    reconcileStatements lines invoices = ⟨lines.filterMap (pairOf invoices),
      lines.filter fun line => (pairOf invoices line).isNone⟩ := by
  rw [reconcileStatements, foldl_reconcileLine, List.nil_append, List.nil_append]

variable {invoices} {lines : List BankStatementLine} {line : BankStatementLine}

theorem statementId_of_pairOf {pair : MatchedPair} (h : pairOf invoices line = some pair) :
    pair.statementId = line.statementLineId := by
  obtain ⟨inv, -, rfl⟩ := Option.map_eq_some_iff.mp h
  rfl

theorem perm_statementIds (invoices : List UnsettledInvoice) (lines : List BankStatementLine) :
    ((lines.filterMap (pairOf invoices)).map MatchedPair.statementId ++
      (lines.filter fun line => (pairOf invoices line).isNone).map
        BankStatementLine.statementLineId).Perm
      (lines.map BankStatementLine.statementLineId) := by
  induction lines with
  | nil => exact List.Perm.refl _
  | cons line lines ih =>
    cases h : pairOf invoices line with
    | none =>
      rw [List.filterMap_cons_none h, List.filter_cons_of_pos (by rw [h, Option.isNone_none]),
        List.map_cons, List.map_cons]
      exact List.perm_middle.trans (ih.cons _)
    | some pair =>
      rw [List.filterMap_cons_some h, List.filter_cons_of_neg (by rw [h]; simp), List.map_cons,
        List.map_cons, statementId_of_pairOf h, List.cons_append]
      exact ih.cons _

theorem mem_pairs_iff (hlines : (lines.map BankStatementLine.statementLineId).Nodup)
    (hline : line ∈ lines) {pair : MatchedPair} :
    (pair ∈ lines.filterMap (pairOf invoices) ∧ pair.statementId = line.statementLineId) ↔
      pairOf invoices line = some pair := by
  rw [List.mem_filterMap]
  constructor
  · rintro ⟨⟨line', hline', hpair⟩, hid⟩
    have heq := (statementId_of_pairOf hpair).symm.trans hid
    rwa [List.inj_on_of_nodup_map hlines hline' hline heq] at hpair
  · exact fun hpair => ⟨⟨line, hline, hpair⟩, statementId_of_pairOf hpair⟩

theorem mem_matchedIds_iff (hlines : (lines.map BankStatementLine.statementLineId).Nodup)
    (hline : line ∈ lines) :
    line.statementLineId ∈ (lines.filterMap (pairOf invoices)).map MatchedPair.statementId ↔
      (pairOf invoices line).isSome := by
  simp only [List.mem_map, mem_pairs_iff hlines hline, Option.isSome_iff_exists]

end Loop

/-! ## Is an invoice settled once? -/

/-- **No invoice is in two pairs, and every line is either in a pair or unmatched**, once. -/
structure SettledOnce (lines : List BankStatementLine) (r : Reconciliation) : Prop where
  once : (r.matchedPairs.map MatchedPair.invoiceId).Nodup
  either : ∀ line ∈ lines, Xor (line.statementLineId ∈ r.matchedPairs.map MatchedPair.statementId)
    (line ∈ r.unmatchedLines)
  all : (r.matchedPairs.map MatchedPair.statementId ++
    r.unmatchedLines.map BankStatementLine.statementLineId).Perm
      (lines.map BankStatementLine.statementLineId)

section SettledOnce

variable {lines : List BankStatementLine} {invoices : List UnsettledInvoice}

theorem invoiceIds_eq : (lines.filterMap (pairOf invoices)).map MatchedPair.invoiceId =
    (lines.filterMap (firstMatch suits invoices)).map UnsettledInvoice.invoiceId := by
  rw [List.map_filterMap, List.map_filterMap]
  congr 1
  funext line
  rw [pairOf, Option.map_map]
  rfl

theorem nodup_invoiceIds_iff (hinvoices : (invoices.map UnsettledInvoice.invoiceId).Nodup) :
    ((lines.filterMap (pairOf invoices)).map MatchedPair.invoiceId).Nodup ↔
      lines.Pairwise (Uncontested suits invoices) := by
  rw [invoiceIds_eq, ← nodup_firstMatch_iff]
  refine ⟨List.Nodup.of_map _, List.Nodup.map_on fun inv hinv inv' hinv' heq => ?_⟩
  have hopen : ∀ inv ∈ lines.filterMap (firstMatch suits invoices), inv ∈ invoices := by
    intro inv hinv
    obtain ⟨line, -, hmatch⟩ := List.mem_filterMap.mp hinv
    exact List.mem_of_find?_eq_some hmatch
  exact List.inj_on_of_nodup_map hinvoices (hopen inv hinv) (hopen inv' hinv') heq

/-- **Each invoice is settled at most once exactly when no two lines contest one**: where two lines
both suit an invoice, one of them suits an earlier invoice. -/
theorem settledOnce_iff (hlines : (lines.map BankStatementLine.statementLineId).Nodup)
    (hinvoices : (invoices.map UnsettledInvoice.invoiceId).Nodup) :
    SettledOnce lines (reconcileStatements lines invoices) ↔
      lines.Pairwise (Uncontested suits invoices) := by
  rw [reconcileStatements_eq, ← nodup_invoiceIds_iff hinvoices]
  refine ⟨fun h => h.once, fun h => ⟨h, fun line hline => ?_, perm_statementIds invoices lines⟩⟩
  have hunmatched : line ∈ (lines.filter fun line => (pairOf invoices line).isNone) ↔
      ¬ (pairOf invoices line).isSome := by
    rw [List.mem_filter, and_iff_right hline, Option.isNone_iff_eq_none,
      Option.not_isSome_iff_eq_none]
  rw [xor_iff_iff_not, hunmatched, not_not]
  exact mem_matchedIds_iff hlines hline

/-- A transfer of 100 dollars. -/
def transfer (statementLineId : String) (referenceNumber : String) : BankStatementLine :=
  ⟨statementLineId, "DE-1", some 0, 100, js "transfer", js referenceNumber⟩

/-- A case: two transfers of the same amount, for two invoices. -/
theorem settledOnce_iff_two :
    SettledOnce [transfer "L1" "INV-1", transfer "L2" "INV-2"]
        (reconcileStatements [transfer "L1" "INV-1", transfer "L2" "INV-2"]
          [⟨js "INV-1", 90⟩, ⟨js "INV-2", 90⟩]) ↔
      [transfer "L1" "INV-1", transfer "L2" "INV-2"].Pairwise
        (Uncontested suits [⟨js "INV-1", 90⟩, ⟨js "INV-2", 90⟩]) :=
  settledOnce_iff (by decide) (by decide)

/-- **A second transfer of the same amount** settles the same invoice again. -/
theorem invoice_settled_twice :
    ¬ ∀ (lines : List BankStatementLine) (invoices : List UnsettledInvoice),
      (lines.map BankStatementLine.statementLineId).Nodup →
      (invoices.map UnsettledInvoice.invoiceId).Nodup →
        SettledOnce lines (reconcileStatements lines invoices) := by
  intro h
  have honce := (h [transfer "L1" "A", transfer "L2" "B"] [⟨js "INV-1", 100⟩, ⟨js "INV-2", 100⟩]
    (by decide) (by decide)).once
  exact absurd honce (by decide)

end SettledOnce

/-! ## Does an exact reference decide? -/

/-- The pairs of the lines whose reference is the id of an open invoice. -/
def referencedPairs (lines : List BankStatementLine) (invoices : List UnsettledInvoice) :
    List MatchedPair :=
  (reconcileStatements lines invoices).matchedPairs.filter fun pair =>
    ∃ line ∈ lines, line.statementLineId = pair.statementId ∧
      line.referenceNumber ∈ invoices.map UnsettledInvoice.invoiceId

/-- **An exact reference decides the match**, and the order of the invoices does not. -/
structure ReferencesDecide (lines : List BankStatementLine) (invoices : List UnsettledInvoice) :
    Prop where
  decides : ∀ invoices', invoices'.Perm invoices → ∀ line ∈ lines, ∀ inv ∈ invoices,
    line.referenceNumber = inv.invoiceId →
      ∀ pair, (pair ∈ (reconcileStatements lines invoices').matchedPairs ∧
        pair.statementId = line.statementLineId) ↔
          pair = ⟨line.statementLineId, inv.invoiceId, line.amountUSD⟩
  order : ∀ invoices', invoices'.Perm invoices →
    referencedPairs lines invoices' = referencedPairs lines invoices

/-- **No coincidence**: a line with the reference of an open invoice suits no other one, by the
amount or by the narrative. -/
def NoCoincidence (lines : List BankStatementLine) (invoices : List UnsettledInvoice) : Prop :=
  ∀ line ∈ lines, ∀ inv ∈ invoices, line.referenceNumber = inv.invoiceId →
    ∀ other ∈ invoices, other ≠ inv → suits line other = false

section References

variable {lines : List BankStatementLine} {invoices : List UnsettledInvoice}

theorem suits_of_reference {line : BankStatementLine} {inv : UnsettledInvoice}
    (h : line.referenceNumber = inv.invoiceId) : suits line inv = true := by
  rw [suits, h, beq_self_eq_true, Bool.or_true]

theorem pairOf_eq_iff {invoices' : List UnsettledInvoice} (hperm : invoices'.Perm invoices)
    (hinvoices : (invoices.map UnsettledInvoice.invoiceId).Nodup) {line : BankStatementLine}
    {inv : UnsettledInvoice} (hinv : inv ∈ invoices) :
    pairOf invoices' line = some ⟨line.statementLineId, inv.invoiceId, line.amountUSD⟩ ↔
      firstMatch suits invoices' line = some inv := by
  rw [pairOf, Option.map_eq_some_iff]
  constructor
  · rintro ⟨found, hfound, heq⟩
    have hmem := hperm.mem_iff.mp (List.mem_of_find?_eq_some hfound)
    rwa [List.inj_on_of_nodup_map hinvoices hmem hinv (MatchedPair.mk.inj heq).2.1] at hfound
  · exact fun hfound => ⟨inv, hfound, rfl⟩

theorem referencedPairs_eq {invoices' : List UnsettledInvoice} (hperm : invoices'.Perm invoices)
    (hlines : (lines.map BankStatementLine.statementLineId).Nodup) :
    referencedPairs lines invoices' = (lines.filter fun line =>
      line.referenceNumber ∈ invoices.map UnsettledInvoice.invoiceId).filterMap
        (pairOf invoices') := by
  rw [referencedPairs, reconcileStatements_eq, List.filter_filterMap, List.filterMap_filter]
  refine List.filterMap_congr fun line hline => ?_
  have hids := (hperm.map UnsettledInvoice.invoiceId).mem_iff (a := line.referenceNumber)
  cases hpair : pairOf invoices' line with
  | none => simp
  | some pair =>
    have hreferenced : (∃ line' ∈ lines, line'.statementLineId = pair.statementId ∧
        line'.referenceNumber ∈ invoices'.map UnsettledInvoice.invoiceId) ↔
          line.referenceNumber ∈ invoices.map UnsettledInvoice.invoiceId := by
      rw [← hids]
      refine ⟨?_, fun h => ⟨line, hline, (statementId_of_pairOf hpair).symm, h⟩⟩
      rintro ⟨line', hline', hid, href⟩
      have heq := hid.trans (statementId_of_pairOf hpair)
      rwa [List.inj_on_of_nodup_map hlines hline' hline heq] at href
    simp only [Option.filter_some, hreferenced]

/-- **An exact reference decides in every order of the invoices exactly when there is no
coincidence**: a line with the reference of one suits no other, by the amount or the narrative. -/
theorem referencesDecide_iff (hlines : (lines.map BankStatementLine.statementLineId).Nodup)
    (hinvoices : (invoices.map UnsettledInvoice.invoiceId).Nodup) :
    ReferencesDecide lines invoices ↔ NoCoincidence lines invoices := by
  constructor
  · intro h line hline inv hinv href
    refine (firstMatch_perm_iff hinv (suits_of_reference href)).mp fun invoices' hperm => ?_
    refine (pairOf_eq_iff hperm hinvoices hinv).mp ((mem_pairs_iff hlines hline).mp ?_)
    have hdecides := (h.decides invoices' hperm line hline inv hinv href _).mpr rfl
    rwa [reconcileStatements_eq] at hdecides
  · intro h
    have hpair : ∀ invoices', invoices'.Perm invoices → ∀ line ∈ lines, ∀ inv ∈ invoices,
        line.referenceNumber = inv.invoiceId → pairOf invoices' line =
          some ⟨line.statementLineId, inv.invoiceId, line.amountUSD⟩ :=
      fun invoices' hperm line hline inv hinv href => by
        have honly := h line hline inv hinv href
        exact (pairOf_eq_iff hperm hinvoices hinv).mpr
          ((firstMatch_perm_iff hinv (suits_of_reference href)).mpr honly invoices' hperm)
    constructor
    · intro invoices' hperm line hline inv hinv href pair
      rw [reconcileStatements_eq, mem_pairs_iff hlines hline, hpair _ hperm _ hline _ hinv href,
        Option.some_inj, eq_comm]
    · intro invoices' hperm
      rw [referencedPairs_eq hperm hlines, referencedPairs_eq (List.Perm.refl _) hlines]
      refine List.filterMap_congr fun line hline => ?_
      obtain ⟨hmem, href⟩ := List.mem_filter.mp hline
      obtain ⟨inv, hinv, hid⟩ := List.mem_map.mp (of_decide_eq_true href)
      rw [hpair _ hperm _ hmem _ hinv hid.symm,
        hpair _ (List.Perm.refl _) _ hmem _ hinv hid.symm]

/-- A case: the references name the invoices, and the amounts say nothing. -/
theorem referencesDecide_iff_two :
    ReferencesDecide [transfer "L1" "INV-1", transfer "L2" "INV-2"]
        [⟨js "INV-1", 90⟩, ⟨js "INV-2", 90⟩] ↔
      NoCoincidence [transfer "L1" "INV-1", transfer "L2" "INV-2"]
        [⟨js "INV-1", 90⟩, ⟨js "INV-2", 90⟩] :=
  referencesDecide_iff (by decide) (by decide)

/-- **An equal amount beats the exact reference** when its invoice stands in front. -/
theorem reference_overruled :
    ¬ ∀ (lines : List BankStatementLine) (invoices : List UnsettledInvoice),
      (lines.map BankStatementLine.statementLineId).Nodup →
      (invoices.map UnsettledInvoice.invoiceId).Nodup → ReferencesDecide lines invoices := by
  intro h
  have hdecides := (h [transfer "L1" "INV-2"] [⟨js "INV-1", 100⟩, ⟨js "INV-2", 250⟩] (by decide)
    (by decide)).decides _ (List.Perm.refl _) _ List.mem_cons_self ⟨js "INV-2", 250⟩ (by decide)
    rfl ⟨"L1", js "INV-1", 100⟩
  exact absurd (hdecides.mp (by decide)) (by decide)

end References

end Logix.Billing
