import Logix.Js.Map
import Logix.Js.Number
import Logix.Spec.Grouping
import Logix.Spec.Machine

/-!
# The chart of accounts of the general ledger

`GeneralLedgerChartOfAccountsMatrix` keeps a balance for each account. Amounts are rational.

* `seedChartOfAccounts`, `postJournalEntry`, `verifyTrialBalance`, `chartMachine`: the code;
* `signedBalance`: a balance counted on the debit side, and `signedDifference`, the debit totals
  less the credit totals;
* **`postJournalEntry_keeps_books`**: no sequence of postings changes the signed difference;
* `signedBalance_run`: what a sequence of postings does to one account;
* **`trial_balance_never`**: the seeded chart is out of balance, and stays so.
-/

namespace Logix.Billing

open Spec

/-- `accountCategory`. -/
inductive AccountCategory where
  | ASSET | LIABILITY | EQUITY | REVENUE | EXPENSE
  deriving DecidableEq, Repr

/-- `normalBalance`. -/
inductive NormalBalance where
  | DEBIT | CREDIT
  deriving DecidableEq, Repr

/-- `IAccountDefinition`. -/
structure IAccountDefinition where
  accountNumber : String
  accountName : String
  accountCategory : AccountCategory
  normalBalance : NormalBalance
  currencyCode : String
  currentBalanceUSD : ℚ
  isSubLedgerEnabled : Bool
  taxReportingCode : String
  deriving DecidableEq, Repr

namespace IAccountDefinition

/-- The mutation of the account on the debit side of a posting. -/
def debit (acc : IAccountDefinition) (amountUSD : ℚ) : IAccountDefinition :=
  if acc.normalBalance = .DEBIT then
    { acc with currentBalanceUSD := acc.currentBalanceUSD + amountUSD }
  else { acc with currentBalanceUSD := acc.currentBalanceUSD - amountUSD }

/-- The mutation of the account on the credit side of a posting. -/
def credit (acc : IAccountDefinition) (amountUSD : ℚ) : IAccountDefinition :=
  if acc.normalBalance = .CREDIT then
    { acc with currentBalanceUSD := acc.currentBalanceUSD + amountUSD }
  else { acc with currentBalanceUSD := acc.currentBalanceUSD - amountUSD }

/-- The balance, counted on the debit side. -/
def signedBalance (acc : IAccountDefinition) : ℚ :=
  if acc.normalBalance = .DEBIT then acc.currentBalanceUSD else -acc.currentBalanceUSD

@[simp] theorem signedBalance_debit (acc : IAccountDefinition) (amountUSD : ℚ) :
    (acc.debit amountUSD).signedBalance = acc.signedBalance + amountUSD := by
  cases h : acc.normalBalance <;> simp [debit, signedBalance, h]; ring

@[simp] theorem signedBalance_credit (acc : IAccountDefinition) (amountUSD : ℚ) :
    (acc.credit amountUSD).signedBalance = acc.signedBalance - amountUSD := by
  cases h : acc.normalBalance <;> simp [credit, signedBalance, h]; ring

end IAccountDefinition

/-- **`GeneralLedgerChartOfAccountsMatrix`.** -/
structure GeneralLedgerChartOfAccountsMatrix where
  accounts : JsMap String IAccountDefinition

/-- What `verifyTrialBalance` returns. -/
structure TrialBalance where
  isBalanced : Bool
  totalDebitsUSD : ℚ
  totalCreditsUSD : ℚ
  differenceUSD : ℚ
  deriving DecidableEq, Repr

/-- `standardAccounts`. -/
def standardAccounts : List IAccountDefinition :=
  [⟨"1010", "Operating Cash in Bank", .ASSET, .DEBIT, "USD", 1450000, true, "CASH_EQ"⟩,
   ⟨"1100", "Trade Accounts Receivable", .ASSET, .DEBIT, "USD", 850000, true, "AR_TRADE"⟩,
   ⟨"1200", "Merchandise Inventory Stock", .ASSET, .DEBIT, "USD", 3200000, true, "INV_FINISHED"⟩,
   ⟨"1300", "Prepaid Expenses & Insurance", .ASSET, .DEBIT, "USD", 120000, false, "PREPAID"⟩,
   ⟨"1500", "Warehouse Machinery & Fleet Equipment", .ASSET, .DEBIT, "USD", 4500000, true,
    "PPE_FLEET"⟩,
   ⟨"1600", "Accumulated Depreciation - Fleet", .ASSET, .CREDIT, "USD", -850000, true,
    "ACC_DEPR"⟩,
   ⟨"2010", "Accounts Payable - Vendors", .LIABILITY, .CREDIT, "USD", 620000, true, "AP_TRADE"⟩,
   ⟨"2100", "Accrued Payroll & Driver Benefits", .LIABILITY, .CREDIT, "USD", 180000, false,
    "PAYROLL_LIAB"⟩,
   ⟨"2200", "Sales Tax Payable to Jurisdictions", .LIABILITY, .CREDIT, "USD", 95000, true,
    "TAX_PAYABLE"⟩,
   ⟨"2500", "Commercial Equipment Term Loan", .LIABILITY, .CREDIT, "USD", 2100000, false,
    "LT_DEBT"⟩,
   ⟨"3010", "Common Share Capital", .EQUITY, .CREDIT, "USD", 3000000, false, "EQUITY_CAP"⟩,
   ⟨"3100", "Retained Earnings Cumulative", .EQUITY, .CREDIT, "USD", 3425000, false, "RET_EARN"⟩,
   ⟨"4010", "Gross Freight Logistics Revenue", .REVENUE, .CREDIT, "USD", 5800000, true,
    "REV_FREIGHT"⟩,
   ⟨"4020", "Warehouse Storage & Handling Revenue", .REVENUE, .CREDIT, "USD", 2100000, true,
    "REV_STORAGE"⟩,
   ⟨"5010", "Cost of Goods Sold - Fuel & Tolls", .EXPENSE, .DEBIT, "USD", 1450000, true,
    "COGS_FUEL"⟩,
   ⟨"5020", "Cost of Goods Sold - Direct Labor", .EXPENSE, .DEBIT, "USD", 1850000, true,
    "COGS_LABOR"⟩,
   ⟨"6010", "Software Cloud Infrastructure Expenses", .EXPENSE, .DEBIT, "USD", 240000, false,
    "OPEX_CLOUD"⟩,
   ⟨"6020", "General Facility Administrative Overhead", .EXPENSE, .DEBIT, "USD", 310000, false,
    "OPEX_GNA"⟩]

namespace GeneralLedgerChartOfAccountsMatrix

/-- `seedChartOfAccounts`. -/
def seedChartOfAccounts (g : GeneralLedgerChartOfAccountsMatrix) :
    GeneralLedgerChartOfAccountsMatrix :=
  ⟨standardAccounts.foldl (fun accounts acc => accounts.set acc.accountNumber acc) g.accounts⟩

/-- `new GeneralLedgerChartOfAccountsMatrix()`. -/
def new : GeneralLedgerChartOfAccountsMatrix := seedChartOfAccounts ⟨.empty⟩

/-- **`postJournalEntry`.** The credit side reads the account after the debit side is written, which
matters when both are one account. -/
def postJournalEntry (g : GeneralLedgerChartOfAccountsMatrix) (debitAccount creditAccount : String)
    (amountUSD : ℚ) : GeneralLedgerChartOfAccountsMatrix × Bool :=
  match g.accounts.get debitAccount, g.accounts.get creditAccount with
  | some _, some _ =>
    (⟨(g.accounts.modify debitAccount fun acc => acc.debit amountUSD).modify creditAccount
        fun acc => acc.credit amountUSD⟩, true)
  | _, _ => (g, false)

/-- The loop of `verifyTrialBalance`: the debits and the credits. -/
def addBalance (sums : ℚ × ℚ) (acc : IAccountDefinition) : ℚ × ℚ :=
  if acc.normalBalance = .DEBIT then (sums.1 + acc.currentBalanceUSD, sums.2)
  else (sums.1, sums.2 + acc.currentBalanceUSD)

/-- `debits` and `credits` at the end of the loop. -/
def balances (g : GeneralLedgerChartOfAccountsMatrix) : ℚ × ℚ :=
  g.accounts.values.foldl addBalance (0, 0)

/-- **`verifyTrialBalance`.** -/
def verifyTrialBalance (g : GeneralLedgerChartOfAccountsMatrix) : TrialBalance :=
  let (debits, credits) := g.balances
  let diff := |debits - credits|
  { isBalanced := decide (diff < 1 / 100)
    totalDebitsUSD := toFixed 2 debits
    totalCreditsUSD := toFixed 2 credits
    differenceUSD := toFixed 2 diff }

end GeneralLedgerChartOfAccountsMatrix

/-- The arguments of `postJournalEntry`. -/
structure ChartPosting where
  debitAccount : String
  creditAccount : String
  amountUSD : ℚ
  deriving DecidableEq, Repr

/-- The calls of `postJournalEntry`, one after another. -/
def chartMachine : Machine GeneralLedgerChartOfAccountsMatrix ChartPosting Bool where
  call p g := g.postJournalEntry p.debitAccount p.creditAccount p.amountUSD

namespace GeneralLedgerChartOfAccountsMatrix

variable {g : GeneralLedgerChartOfAccountsMatrix}

/-! ## The totals -/

/-- The debit totals less the credit totals. -/
def signedDifference (g : GeneralLedgerChartOfAccountsMatrix) : ℚ := g.balances.1 - g.balances.2

theorem foldl_addBalance (accs : List IAccountDefinition) (sums : ℚ × ℚ) :
    (accs.foldl addBalance sums).1 - (accs.foldl addBalance sums).2 =
      sums.1 - sums.2 + (accs.map IAccountDefinition.signedBalance).sum := by
  refine foldl_field_eq (g := fun sums : ℚ × ℚ => sums.1 - sums.2) (fun sums acc => ?_) accs sums
  cases h : acc.normalBalance <;> simp [addBalance, IAccountDefinition.signedBalance, h] <;> ring

theorem signedDifference_eq_total (g : GeneralLedgerChartOfAccountsMatrix) :
    g.signedDifference = g.accounts.total IAccountDefinition.signedBalance := by
  rw [signedDifference, balances, foldl_addBalance, sub_zero, zero_add]
  rfl

theorem isBalanced_eq (g : GeneralLedgerChartOfAccountsMatrix) :
    g.verifyTrialBalance.isBalanced = decide (|g.signedDifference| < 1 / 100) := by
  unfold verifyTrialBalance signedDifference
  rfl

theorem abs_differenceUSD_sub_le (g : GeneralLedgerChartOfAccountsMatrix) :
    abs (g.verifyTrialBalance.differenceUSD - |g.signedDifference|) ≤ 1 / 2 / 10 ^ 2 :=
  abs_toFixed_sub_le 2 _

/-! ## One posting -/

theorem postJournalEntry_cases (g : GeneralLedgerChartOfAccountsMatrix) (d c : String) (x : ℚ) :
    (∃ a b, g.accounts.get d = some a ∧ g.accounts.get c = some b ∧
      g.postJournalEntry d c x = (⟨(g.accounts.modify d fun acc => acc.debit x).modify c
        fun acc => acc.credit x⟩, true)) ∨
    ((g.accounts.get d = none ∨ g.accounts.get c = none) ∧
      g.postJournalEntry d c x = (g, false)) := by
  unfold postJournalEntry
  cases hd : g.accounts.get d with
  | none => exact Or.inr ⟨Or.inl rfl, rfl⟩
  | some a =>
    cases hc : g.accounts.get c with
    | none => exact Or.inr ⟨Or.inr rfl, rfl⟩
    | some b => exact Or.inl ⟨a, b, rfl, rfl, rfl⟩

/-- **The step**: the two sides cancel, also when they are one account. -/
theorem signedDifference_postJournalEntry (g : GeneralLedgerChartOfAccountsMatrix) (d c : String)
    (x : ℚ) : (g.postJournalEntry d c x).1.signedDifference = g.signedDifference := by
  rcases g.postJournalEntry_cases d c x with ⟨a, b, hd, hc, h⟩ | ⟨-, h⟩
  · have hc' := JsMap.get_modify_of_get hc d fun acc => acc.debit x
    rw [h, signedDifference_eq_total, signedDifference_eq_total, JsMap.total_modify hc',
      JsMap.total_modify hd, IAccountDefinition.signedBalance_credit,
      IAccountDefinition.signedBalance_debit]
    ring
  · rw [h]

theorem eq_of_postJournalEntry_false {d c : String} {x : ℚ}
    (h : (g.postJournalEntry d c x).2 = false) : (g.postJournalEntry d c x).1 = g := by
  rcases g.postJournalEntry_cases d c x with ⟨a, b, -, -, hp⟩ | ⟨-, hp⟩
  · rw [hp] at h
    cases h
  · rw [hp]

/-! ## Every sequence of postings -/

theorem signedDifference_run (g : GeneralLedgerChartOfAccountsMatrix) (ps : List ChartPosting) :
    (chartMachine.run g ps).signedDifference = g.signedDifference := by
  induction ps generalizing g with
  | nil => rfl
  | cons p ps ih => exact (ih _).trans (g.signedDifference_postJournalEntry _ _ _)

/-- **Posting keeps the books**: whatever the chart and the calls, the signed difference stays, and
a refused call changes nothing. -/
theorem postJournalEntry_keeps_books (g : GeneralLedgerChartOfAccountsMatrix)
    (ps : List ChartPosting) :
    (chartMachine.run g ps).signedDifference = g.signedDifference ∧
      ∀ e ∈ chartMachine.history g ps, e.result = false → e.after = e.before := by
  refine ⟨signedDifference_run g ps, fun e he hr => ?_⟩
  obtain ⟨ps₁, p, ps₂, -, rfl⟩ := Machine.mem_history_iff.mp he
  exact eq_of_postJournalEntry_false hr

/-! ## One account -/

/-- The balance of an account number, counted on the debit side. -/
def balanceOf (g : GeneralLedgerChartOfAccountsMatrix) (number : String) : ℚ :=
  ((g.accounts.get number).map IAccountDefinition.signedBalance).getD 0

/-- Both accounts of the posting are in the chart. -/
def posts (g : GeneralLedgerChartOfAccountsMatrix) (p : ChartPosting) : Bool :=
  (g.accounts.get p.debitAccount).isSome && (g.accounts.get p.creditAccount).isSome

/-- What a posting adds to an account, counted on the debit side. -/
def net (number : String) (p : ChartPosting) : ℚ :=
  (if number = p.debitAccount then p.amountUSD else 0) -
    if number = p.creditAccount then p.amountUSD else 0

theorem isSome_get_next (p : ChartPosting) (number : String) :
    ((chartMachine.next g p).accounts.get number).isSome = (g.accounts.get number).isSome := by
  rcases g.postJournalEntry_cases p.debitAccount p.creditAccount p.amountUSD with
    ⟨a, b, -, -, h⟩ | ⟨-, h⟩
  · simp [Machine.next, chartMachine, h]
  · simp [Machine.next, chartMachine, h]

theorem posts_next (p : ChartPosting) : (chartMachine.next g p).posts = g.posts := by
  funext q
  rw [posts, posts, isSome_get_next, isSome_get_next]

theorem balanceOf_modify {m : JsMap String IAccountDefinition} {k : String}
    {acc : IAccountDefinition} (hk : m.get k = some acc) {f : IAccountDefinition → IAccountDefinition}
    {x : ℚ} (hf : ∀ acc, (f acc).signedBalance = acc.signedBalance + x) (number : String) :
    balanceOf ⟨m.modify k f⟩ number = balanceOf ⟨m⟩ number + if number = k then x else 0 := by
  simp only [balanceOf, JsMap.get_modify]
  split_ifs with h
  · subst h
    simp [hk, hf]
  · exact (add_zero _).symm

theorem balanceOf_next (g : GeneralLedgerChartOfAccountsMatrix) (p : ChartPosting)
    (number : String) : (chartMachine.next g p).balanceOf number =
      g.balanceOf number + if g.posts p then net number p else 0 := by
  rcases g.postJournalEntry_cases p.debitAccount p.creditAccount p.amountUSD with
    ⟨a, b, hd, hc, h⟩ | ⟨hnone, h⟩
  · have hposts : g.posts p = true := by simp [posts, hd, hc]
    have hnext : chartMachine.next g p = ⟨(g.accounts.modify p.debitAccount fun acc =>
        acc.debit p.amountUSD).modify p.creditAccount fun acc => acc.credit p.amountUSD⟩ :=
      congrArg Prod.fst h
    rw [hnext, balanceOf_modify (JsMap.get_modify_of_get hc _ _) (x := -p.amountUSD)
      fun acc => by rw [IAccountDefinition.signedBalance_credit, sub_eq_add_neg],
      balanceOf_modify hd fun acc => acc.signedBalance_debit _, hposts, if_pos rfl, net, add_assoc]
    split_ifs <;> ring
  · have hposts : g.posts p = false := by
      rcases hnone with hnone | hnone <;> simp [posts, hnone]
    simp [Machine.next, chartMachine, h, hposts]

/-- **An account after a run** holds its opening balance and what the accepted postings add; which
postings are accepted is known from the chart at the start. -/
theorem balanceOf_run (g : GeneralLedgerChartOfAccountsMatrix) (ps : List ChartPosting)
    (number : String) : (chartMachine.run g ps).balanceOf number =
      g.balanceOf number + ((ps.filter g.posts).map (net number)).sum := by
  induction ps generalizing g with
  | nil => simp
  | cons p ps ih =>
    have hrun : chartMachine.run g (p :: ps) = chartMachine.run (chartMachine.next g p) ps := rfl
    rw [hrun, ih, posts_next, balanceOf_next]
    cases hp : g.posts p <;> simp [hp, add_assoc]

/-! ## The seeded chart -/

theorem signedDifference_new : new.signedDifference = -2500000 := by decide +kernel

/-- **The trial balance of the seeded chart fails in every state**: it is out by the same amount
after any calls. -/
theorem trial_balance_never (ps : List ChartPosting) :
    (chartMachine.run new ps).verifyTrialBalance.isBalanced = false := by
  rw [isBalanced_eq, signedDifference_run, signedDifference_new]
  decide +kernel

/-- The chart before any call. -/
theorem seeded_out_of_balance :
    ¬ ∀ ps, (chartMachine.run new ps).verifyTrialBalance.isBalanced = true := by
  intro h
  have hnew : new.verifyTrialBalance.isBalanced = true := h []
  rw [isBalanced_eq, signedDifference_new] at hnew
  exact absurd hnew (by decide +kernel)

end GeneralLedgerChartOfAccountsMatrix

end Logix.Billing
