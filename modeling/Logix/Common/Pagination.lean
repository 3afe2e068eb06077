import Logix.Common.AggregateRepository
import Logix.Js.Text
import Logix.Spec.Pages
import Mathlib.Data.Rat.Floor
import Mathlib.Algebra.Order.Floor.Semifield

/-!
# Are pages sorted?

The pages of a query make up the records that satisfy the filter, in the order in which they are
stored. `sortBy` and `sortOrder` are read from the options, and not used.

* `allPages`: the records of all pages; **`allPages_eq`**: what they are;
* `SortValue`, `Precedes`: the order that the options ask for;
* `SortedPartition`: every record that satisfies the filter is on one page, in this order;
* **`sortedPartition_iff`**: when they are, and when the pages do not depend on the order of the
  inserts.
-/

namespace Logix.Common

open Spec

/-! ## Positions -/

theorem slicePosition_of_nonneg {n : ℚ} (hn : 0 ≤ n) (length : ℕ) :
    slicePosition length n = min ⌊n⌋₊ length := by
  have hfloor : n.num.tdiv n.den = ⌊n⌋ := by
    rw [Int.tdiv_eq_ediv_of_nonneg (Rat.num_nonneg.mpr hn), Rat.floor_def']
  rw [slicePosition, hfloor, if_neg (not_lt.mpr (Int.floor_nonneg.mpr hn)), Int.floor_toNat]

theorem slice_of_nonneg {α : Type} {start stop : ℚ} (hstart : 0 ≤ start) (hstop : 0 ≤ stop)
    (l : List α) :
    slice l start stop = (l.take (min ⌊stop⌋₊ l.length)).drop (min ⌊start⌋₊ l.length) := by
  rw [slice, slicePosition_of_nonneg hstart, slicePosition_of_nonneg hstop]

/-! ## Pages -/

section Pages

variable {R U : Type} (T : RecordType R U)

/-- The records of a page. -/
def RepositoryResult.records : RepositoryResult R → List R
  | .page records _ _ _ => records
  | _ => []

/-- `totalCount`. -/
def RepositoryResult.totalCount : RepositoryResult R → ℕ
  | .page _ totalCount _ _ => totalCount
  | _ => 0

/-- **The records of all pages**, from the first one to that of the last record. -/
def allPages (records : List R) (options : IQueryOptions) : List R :=
  let totalCount := (query T records options).totalCount
  (List.range' 1 ⌈totalCount / options.limit.getD 20⌉₊).flatMap fun page : ℕ =>
    (query T records { options with page := some (page : ℚ) }).records

/-- **A record satisfies a filter**: it has the values of all fields that are named. -/
def Satisfies (filter : JsMap String JsValue) (r : R) : Prop :=
  ∀ e ∈ filter.entries, e.2 ≠ .undefined ∧ e.2 ≠ .null → T.field r e.1 = e.2

instance (filter : JsMap String JsValue) (r : R) : Decidable (Satisfies T filter r) :=
  inferInstanceAs (Decidable (∀ e ∈ filter.entries, _))

variable {T} {options : IQueryOptions}

theorem foldl_filters (es : List (String × JsValue)) (records : List R) :
    es.foldl (fun all e => if e.2 ≠ .undefined ∧ e.2 ≠ .null then
      all.filter fun r => T.field r e.1 = e.2 else all) records =
      records.filter fun r => ∀ e ∈ es, e.2 ≠ .undefined ∧ e.2 ≠ .null → T.field r e.1 = e.2 := by
  induction es generalizing records with
  | nil => simp
  | cons e es ih =>
    rw [List.foldl_cons, ih]
    split_ifs with h
    · rw [List.filter_filter]
      refine List.filter_congr fun r _ => ?_
      simp only [List.forall_mem_cons, forall_prop_of_true h, Bool.decide_and, Bool.and_comm]
    · refine List.filter_congr fun r _ => ?_
      simp only [List.forall_mem_cons, h, false_imp_iff, true_and]

theorem applyFilters_eq (filter : JsMap String JsValue) (records : List R) :
    applyFilters T filter records = records.filter (Satisfies T filter) :=
  foldl_filters filter.entries records

/-- Where the page behind the first `i` ones starts, in a list of the given length. -/
def pageStart (limit : ℚ) (length i : ℕ) : ℕ := min ⌊i * limit⌋₊ length

theorem pageStart_mono {limit : ℚ} (hlimit : 0 < limit) (length : ℕ) :
    Monotone (pageStart limit length) := by
  intro i j hij
  have hcast : (i : ℚ) ≤ j := Nat.cast_le.mpr hij
  exact min_le_min_right _ (Nat.floor_mono (mul_le_mul_of_nonneg_right hcast hlimit.le))

theorem pageStart_last {limit : ℚ} (hlimit : 0 < limit) (length : ℕ) :
    pageStart limit length ⌈length / limit⌉₊ = length := by
  refine min_eq_right (Nat.le_floor ?_)
  rw [← div_le_iff₀ hlimit]
  exact Nat.le_ceil _

/-- **The records of a page** are those from its start to that of the next one. -/
theorem records_query (hlimit : 0 < options.limit.getD 20) (records : List R) (i : ℕ) :
    (query T records { options with page := some ((1 + i : ℕ) : ℚ) }).records =
      ((applyFilters T options.filter records).take
        (pageStart (options.limit.getD 20) (applyFilters T options.filter records).length
          (i + 1))).drop
        (pageStart (options.limit.getD 20) (applyFilters T options.filter records).length i) := by
  have hstart : (((1 + i : ℕ) : ℚ) - 1) * options.limit.getD 20 = i * options.limit.getD 20 := by
    push_cast
    ring
  have hstop : (i : ℚ) * options.limit.getD 20 + options.limit.getD 20 =
      (i + 1 : ℕ) * options.limit.getD 20 := by
    push_cast
    ring
  rw [query, RepositoryResult.records, Option.getD_some, hstart, hstop]
  exact slice_of_nonneg (by positivity) (by positivity) _

/-- **All pages** together are the records that satisfy the filter, as they are stored. -/
theorem allPages_eq (hlimit : 0 < options.limit.getD 20) (records : List R) :
    allPages T records options = records.filter (Satisfies T options.filter) := by
  rw [← applyFilters_eq, allPages, query, RepositoryResult.totalCount, List.range'_eq_map_range,
    List.flatMap_map]
  simp only [records_query hlimit]
  rw [flatMap_pages (pageStart_mono hlimit _) (by simp [pageStart]), pageStart_last hlimit,
    List.take_length]

end Pages

/-! ## The order that is asked for -/

/-- A value that records are sorted by: a text, or a number, which may be the time of a date. -/
inductive SortValue where
  | text (s : JsString)
  | number (n : ℚ)
  deriving DecidableEq, Repr

/-- `v < w` of two texts, or of two numbers. -/
def SortValue.Below : SortValue → SortValue → Prop
  | .text s, .text t => s < t
  | .number m, .number n => m < n
  | _, _ => False

instance : ∀ v w : SortValue, Decidable (v.Below w)
  | .text s, .text t => inferInstanceAs (Decidable (s < t))
  | .number m, .number n => inferInstanceAs (Decidable (m < n))
  | .text _, .number _ | .number _, .text _ => .isFalse not_false

/-- The value of a field. -/
def IOrderAggregate.sortValue (record : IOrderAggregate) : String → Option SortValue
  | "orderId" => some (.text (js record.orderId))
  | "tenantId" => some (.text (js record.tenantId))
  | "customerId" => some (.text (js record.customerId))
  | "status" => some (.text (js record.status.text))
  | "totalAmountUSD" => some (.number record.totalAmountUSD)
  | "taxAmountUSD" => some (.number record.taxAmountUSD)
  | "shippingAmountUSD" => some (.number record.shippingAmountUSD)
  | "currency" => some (.text (js record.currency))
  | "lineItemCount" => some (.number record.lineItemCount)
  | "sagaCorrelationId" => some (.text (js record.sagaCorrelationId))
  | "createdAt" => some (.number record.createdAt.time)
  | "updatedAt" => some (.number record.updatedAt.time)
  | _ => none

/-- **A record comes before another one** in the order of `sortBy` and `sortOrder`. -/
def Precedes (options : IQueryOptions) (r r' : IOrderAggregate) : Prop :=
  ∃ v ∈ r.sortValue (options.sortBy.getD "orderId"),
    ∃ w ∈ r'.sortValue (options.sortBy.getD "orderId"),
      if options.sortOrder.getD "desc" = "asc" then v.Below w else w.Below v

instance (options : IQueryOptions) (r r' : IOrderAggregate) : Decidable (Precedes options r r') :=
  inferInstanceAs (Decidable (∃ v ∈ _, ∃ w ∈ _, ite _ _ _))

/-- The records of a tenant that satisfy the filter, as they are stored. -/
def matching (s : Storage IOrderAggregate) (tenantId : String) (options : IQueryOptions) :
    List IOrderAggregate :=
  (recordsOf orderAggregate s tenantId).filter (Satisfies orderAggregate options.filter)

/-- **The values of the field are comparable and distinct.** -/
def DistinctValues (s : Storage IOrderAggregate) (tenantId : String) (options : IQueryOptions) :
    Prop :=
  (matching s tenantId options).Pairwise fun r r' => Precedes options r r' ∨ Precedes options r' r

instance (s : Storage IOrderAggregate) (tenantId : String) (options : IQueryOptions) :
    Decidable (DistinctValues s tenantId options) :=
  inferInstanceAs (Decidable (List.Pairwise _ _))

/-- The records of all pages of a query. -/
def paginate (s : Storage IOrderAggregate) (tenantId : String) (options : IQueryOptions) :
    List IOrderAggregate :=
  allPages orderAggregate (recordsOf orderAggregate s tenantId) options

/-- **The pages are a sorted partition**: every record that satisfies the filter is on one page, and
they come in the order that is asked for. -/
structure SortedPartition (s : Storage IOrderAggregate) (tenantId : String)
    (options : IQueryOptions) : Prop where
  once : (paginate s tenantId options).Perm (matching s tenantId options)
  sorted : (paginate s tenantId options).Pairwise (Precedes options)

variable {s s' : Storage IOrderAggregate} {tenantId : String} {options : IQueryOptions}

theorem SortValue.Below.ne {v w : SortValue} (h : v.Below w) : v ≠ w := by
  rintro rfl
  cases v with
  | text s => exact List.lt_irrefl s h
  | number n => exact lt_irrefl n h

theorem Precedes.ne {r r' : IOrderAggregate} (h : Precedes options r r') : r ≠ r' := by
  rintro rfl
  obtain ⟨v, hv, w, hw, hbelow⟩ := h
  obtain rfl := Option.mem_unique hv hw
  split_ifs at hbelow <;> exact hbelow.ne rfl

theorem DistinctValues.nodup (h : DistinctValues s tenantId options) :
    (matching s tenantId options).Nodup :=
  h.imp fun h => h.elim Precedes.ne fun h => h.ne.symm

theorem paginate_eq (hlimit : 1 ≤ options.limit.getD 20) :
    paginate s tenantId options = matching s tenantId options :=
  allPages_eq (zero_lt_one.trans_le hlimit) _

theorem matching_perm (h : s'.entries.Perm s.entries) :
    (matching s' tenantId options).Perm (matching s tenantId options) :=
  ((h.map Prod.snd).filter _).filter _

/-- The records, inserted the other way round. -/
def reversed (s : Storage IOrderAggregate) : Storage IOrderAggregate where
  entries := s.entries.reverse
  nodup := by
    rw [List.map_reverse, List.nodup_reverse]
    exact s.nodup

theorem matching_reversed :
    matching (reversed s) tenantId options = (matching s tenantId options).reverse := by
  rw [matching, matching, recordsOf, recordsOf, ← List.filter_reverse, ← List.filter_reverse,
    JsMap.values, JsMap.values, ← List.map_reverse, reversed]

/-- **Pages are sorted** exactly when the matching records are stored in the order that is asked
for. They are so whatever the order of the inserts was exactly when at most one record matches. -/
theorem sortedPartition_iff (s : Storage IOrderAggregate) (tenantId : String)
    (options : IQueryOptions) (hlimit : 1 ≤ options.limit.getD 20)
    (hdistinct : DistinctValues s tenantId options) :
    (SortedPartition s tenantId options ↔
      (matching s tenantId options).Pairwise (Precedes options)) ∧
    ((∀ s' : Storage IOrderAggregate, s'.entries.Perm s.entries →
        SortedPartition s' tenantId options ∧
          paginate s' tenantId options = paginate s tenantId options) ↔
      (matching s tenantId options).length ≤ 1) := by
  have hsorted : ∀ s' : Storage IOrderAggregate, SortedPartition s' tenantId options ↔
      (matching s' tenantId options).Pairwise (Precedes options) := by
    intro s'
    constructor
    · intro h
      rw [← paginate_eq hlimit]
      exact h.sorted
    · intro h
      rw [← paginate_eq hlimit] at h
      exact ⟨List.Perm.of_eq (paginate_eq hlimit), h⟩
  refine ⟨hsorted s, ?_, ?_⟩
  · intro h
    by_contra hlength
    have hreversed := (h (reversed s) (List.reverse_perm _)).2
    rw [paginate_eq hlimit, paginate_eq hlimit, matching_reversed] at hreversed
    exact reverse_ne_self hdistinct.nodup (not_le.mp hlength) hreversed
  · intro hlength s' hperm
    obtain ⟨hordered, hunique⟩ := short_list hlength (Precedes options)
    have hmatching := hunique _ (matching_perm hperm)
    rw [hsorted, paginate_eq hlimit, paginate_eq hlimit, hmatching]
    exact ⟨hordered, rfl⟩

/-- A tenant with two orders, in the order in which they were inserted. -/
def twoOrders (first second : String) : Storage IOrderAggregate :=
  (JsMap.empty.set first (aggregateOf "T-1" first)).set second (aggregateOf "T-1" second)

/-- A case: the greater id was inserted first. -/
theorem sortedPartition_iff_two :
    (SortedPartition (twoOrders "O-2" "O-1") "T-1" {} ↔
      (matching (twoOrders "O-2" "O-1") "T-1" {}).Pairwise (Precedes {})) ∧
    ((∀ s' : Storage IOrderAggregate, s'.entries.Perm (twoOrders "O-2" "O-1").entries →
        SortedPartition s' "T-1" {} ∧
          paginate s' "T-1" {} = paginate (twoOrders "O-2" "O-1") "T-1" {}) ↔
      (matching (twoOrders "O-2" "O-1") "T-1" {}).length ≤ 1) :=
  sortedPartition_iff (twoOrders "O-2" "O-1") "T-1" {} (by decide) (by decide)

/-- **The order that is asked for is ignored**: ids are to go down, and go up. -/
theorem order_ignored : ¬ ∀ (s : Storage IOrderAggregate) (tenantId : String)
    (options : IQueryOptions), 1 ≤ options.limit.getD 20 → DistinctValues s tenantId options →
      SortedPartition s tenantId options ∧
        ∀ s' : Storage IOrderAggregate, s'.entries.Perm s.entries →
          paginate s' tenantId options = paginate s tenantId options := fun h => by
  have hsorted := (h (twoOrders "O-1" "O-2") "T-1" {} (by decide) (by decide)).1.sorted
  exact absurd hsorted (by decide +kernel)

end Logix.Common
