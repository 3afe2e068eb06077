import Logix.Async.Program

/-!
# Rely and guarantee

What a suspended call has seen must survive the segments that the others run meanwhile.

* `Outline`: for every call a `guarantee` on the heap changes of its segments and an assertion
  that is stable under the guarantees of all calls; an invariant of the heap; an assertion for
  every outcome;
* `Outline.Segment`, `Outline.Holds`: the outline of one segment, and of a configuration;
* `Outline.Keeps`: the segments of a program follow the outline. Then the outline holds in every
  run (**`Keeps.holds`**), every step is within the guarantee of its call (`Keeps.guarantee`), and
  what the guarantees of some calls preserve outlasts the runs of these calls (`Keeps.preserves`);
* `Program.onBehalf`: a program whose calls act for principals; `Segment.map`, `Outline.comap`:
  segments and outlines under a renaming of calls and outcomes.
-/

namespace Logix.Async

variable {σ κ κ' ι ρ ρ' π : Type}

/-- **A rely–guarantee outline.** -/
structure Outline (σ κ ρ : Type) where
  guarantee : κ → σ → σ → Prop
  inv : σ → Prop
  assertion : κ → σ → Prop
  outcome : ρ → Prop
  stable : ∀ k k' h h', guarantee k' h h' → assertion k h → assertion k h'

namespace Outline

variable {O : Outline σ κ ρ} {P : Program σ κ ι ρ} {ok : Config σ κ ρ → Act κ ι → Prop}
  {c₀ c : Config σ κ ρ}

/-- The outline of a segment of `k` that starts on heap `h`. -/
structure Segment (O : Outline σ κ ρ) (k : κ) (h : σ) (s : Async.Segment σ κ ρ) : Prop where
  guarantee : O.guarantee k h s.heap
  inv : O.inv s.heap
  waiting : ∀ k' ∈ s.waiting, O.assertion k' s.heap
  settled : ∀ o ∈ s.settled, O.outcome o

section Shapes

variable {k k' : κ} {h h' : σ} {o : ρ}

theorem Segment.waits (hg : O.guarantee k h h') (hi : O.inv h') (hk : O.assertion k' h') :
    O.Segment k h { heap := h', waiting := [k'] } where
  guarantee := hg
  inv := hi
  waiting _ hmem := by rwa [List.mem_singleton.mp hmem]
  settled _ hmem := absurd hmem List.not_mem_nil

theorem Segment.settles (hg : O.guarantee k h h') (hi : O.inv h') (ho : O.outcome o) :
    O.Segment k h { heap := h', settled := [o] } where
  guarantee := hg
  inv := hi
  waiting _ hmem := absurd hmem List.not_mem_nil
  settled _ hmem := by rwa [List.mem_singleton.mp hmem]

theorem Segment.ends (hg : O.guarantee k h h') (hi : O.inv h') : O.Segment k h { heap := h' } where
  guarantee := hg
  inv := hi
  waiting _ hmem := absurd hmem List.not_mem_nil
  settled _ hmem := absurd hmem List.not_mem_nil

end Shapes

/-- The outline of a configuration. -/
structure Holds (O : Outline σ κ ρ) (c : Config σ κ ρ) : Prop where
  inv : O.inv c.heap
  inFlight : ∀ k ∈ c.inFlight, O.assertion k c.heap
  settled : ∀ o ∈ c.settled, O.outcome o

/-- Every start and every continuation follows the outline. -/
structure Keeps (O : Outline σ κ ρ) (P : Program σ κ ι ρ)
    (ok : Config σ κ ρ → Act κ ι → Prop) : Prop where
  call : ∀ c k i, ok c (.call k i) → O.inv c.heap → O.Segment k c.heap (P.run k i c.heap)
  resume : ∀ h k i, O.inv h → O.assertion k h → O.Segment k h (P.run k i h)

theorem Keeps.segment (hP : O.Keeps P ok) (h : O.Holds c) {a : Act κ ι} {k : κ} {i : ι}
    {rest : List κ} (hok : ok c a) (hr : Runs c a k i rest) :
    O.Segment k c.heap (P.run k i c.heap) := by
  rcases hr.call_or_mem with rfl | hk
  · exact hP.call c k i hok h.inv
  · exact hP.resume c.heap k i h.inv (h.inFlight k hk)

/-- **Every step is within the guarantee of its call.** -/
theorem Keeps.guarantee (hP : O.Keeps P ok) (h : O.Holds c) {a : Act κ ι} {k : κ} {i : ι}
    {rest : List κ} (hok : ok c a) (hr : Runs c a k i rest) :
    O.guarantee k c.heap (P.run k i c.heap).heap :=
  (hP.segment h hok hr).guarantee

/-- **The step lemma**: the calls that do not run keep their assertions. -/
theorem Keeps.after (hP : O.Keeps P ok) (h : O.Holds c) {a : Act κ ι} {k : κ} {i : ι}
    {rest : List κ} (hok : ok c a) (hr : Runs c a k i rest) :
    O.Holds (c.after (P.run k i c.heap) rest) := by
  have hs := hP.segment h hok hr
  refine ⟨hs.inv, fun k' hk' => ?_, fun o ho => ?_⟩
  · rcases List.mem_append.mp hk' with hk' | hk'
    · exact O.stable k' k _ _ hs.guarantee (h.inFlight k' (hr.mem_rest hk'))
    · exact hs.waiting k' hk'
  · rcases List.mem_append.mp ho with ho | ho
    · exact h.settled o ho
    · exact hs.settled o ho

/-- **The run lemma.** -/
theorem Keeps.holds (hP : O.Keeps P ok) (h₀ : O.Holds c₀) (h : Reach P ok c₀ c) : O.Holds c :=
  h.invariant h₀ fun _ _ _ _ _ hI hok hr => hP.after hI hok hr

/-- **What the guarantees of some calls preserve** outlasts a run in which only these calls are
started and continued. -/
theorem Keeps.preserves (hP : O.Keeps P ok) (h : O.Holds c₀) {who : κ → Prop} {J : σ → Prop}
    (hJ : J c₀.heap) (hpres : ∀ k h h', who k → O.guarantee k h h' → J h → J h')
    (hrun : Reach P (fun c a => ok c a ∧ ∀ k i rest, Runs c a k i rest → who k) c₀ c) :
    J c.heap := by
  have hboth : O.Holds c ∧ J c.heap := by
    refine hrun.invariant (I := fun c => O.Holds c ∧ J c.heap) ⟨h, hJ⟩ ?_
    rintro d a k i rest ⟨hd, hJd⟩ ⟨hok, hwho⟩ hr
    exact ⟨hP.after hd hok hr, hpres k _ _ (hwho k i rest hr) (hP.guarantee hd hok hr) hJd⟩
  exact hboth.2

/-- The outline of renamed calls and outcomes. -/
def comap (f : κ → κ') (g : ρ → ρ') (O : Outline σ κ' ρ') : Outline σ κ ρ where
  guarantee k := O.guarantee (f k)
  inv := O.inv
  assertion k := O.assertion (f k)
  outcome o := O.outcome (g o)
  stable k k' := O.stable (f k) (f k')

end Outline

/-! ## Renaming, and acting for a principal -/

/-- Rename what a segment leaves behind. -/
def Segment.map (f : κ → κ') (g : ρ → ρ') (s : Segment σ κ ρ) : Segment σ κ' ρ' where
  heap := s.heap
  waiting := s.waiting.map f
  settled := s.settled.map g

theorem Outline.Segment.map {f : κ → κ'} {g : ρ → ρ'} {O : Outline σ κ' ρ'} {k : κ} {h : σ}
    {s : Async.Segment σ κ ρ} (hs : (O.comap f g).Segment k h s) :
    O.Segment (f k) h (s.map f g) where
  guarantee := hs.guarantee
  inv := hs.inv
  waiting k' hk' := by
    obtain ⟨k, hk, rfl⟩ := List.mem_map.mp hk'
    exact hs.waiting k hk
  settled o' ho' := by
    obtain ⟨o, ho, rfl⟩ := List.mem_map.mp ho'
    exact hs.settled o ho

/-- **Acting for a principal**: what is left of a call, and its outcome, stay with the principal
that the call was made for. -/
def Program.onBehalf (P : π → Program σ κ ι ρ) : Program σ (π × κ) ι (π × ρ) where
  run k i h := ((P k.1).run k.2 i h).map (Prod.mk k.1) (Prod.mk k.1)

end Logix.Async
