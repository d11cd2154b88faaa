import RecordShelf.Proofs.Query.Concurrent
import RecordShelf.Proofs.Query.Delete

/-!
# No lost update

Whoever holds the lock on a record and has read it has read what is still there. So the content of a
record's file comes from the turns of the statements that were granted its lock, one after another,
whatever other steps stand between them.
-/

namespace RecordShelf.Query
open Sql

namespace Concurrent
variable {rules : Rules} {ι : Type} {jobs : ι → Job rules} {i : ι} {start content : Option ByteArray}
  {turns earlier : List (Turn ι)} {s : Shelf} {σ σ' : State ι}

/-- The content of a file after some turns, the latest of which comes first. -/
def replay (jobs : ι → Job rules) (start : Option ByteArray) (turns : List (Turn ι)) :
    Option ByteArray :=
  turns.foldr (fun t content => t.effect jobs content) start

/-- How the content of a file goes with the turns on it while someone holds its lock: up to the
writing the latest turn has not changed it, and what was read is what is there. -/
def Phase.Tallies (jobs : ι → Job rules) (i : ι) (start content : Option ByteArray)
    (turns : List (Turn ι)) : Phase → Prop
  | .granted _ _ _ => ∃ earlier, turns = ⟨i, false⟩ :: earlier ∧ content = replay jobs start earlier
  | .read _ seen _ _ => ∃ earlier, turns = ⟨i, false⟩ :: earlier ∧
      content = replay jobs start earlier ∧ content.bind RecordFile.decode = seen
  | .settled _ _ _ _ => content = replay jobs start turns
  | _ => False

/-- What holds in every state that the statements come to. -/
structure Consistent (jobs : ι → Job rules) (s : Shelf) (σ : State ι) : Prop where
  wellformed : σ.shelf.Wellformed
  holder_iff : ∀ place i, σ.holder place = some i ↔
    place.1 = (jobs i).table ∧ (σ.phase i).held = some place.2
  free : ∀ place, σ.holder place = none →
    σ.shelf.content place = replay jobs (s.content place) (σ.turns place)
  taken : ∀ place i, σ.holder place = some i →
    (σ.phase i).Tallies jobs i (s.content place) (σ.shelf.content place) (σ.turns place)
  failing : ∀ place, ∀ t ∈ σ.turns place, t.failed = true → (σ.phase t.who).Failing

/-- A statement that holds a lock is the holder. -/
theorem Consistent.holder_eq (h : Consistent jobs s σ) {key : String}
    (hheld : (σ.phase i).held = some key) : σ.holder ((jobs i).table, key) = some i :=
  (h.holder_iff _ i).2 ⟨rfl, hheld⟩

theorem Consistent.granted (h : Consistent jobs s σ) {key : String} {rest : List String} {n : ℕ}
    (hphase : σ.phase i = .granted key rest n) :
    ∃ earlier, σ.turns ((jobs i).table, key) = ⟨i, false⟩ :: earlier ∧
      σ.shelf.content ((jobs i).table, key) =
        replay jobs (s.content ((jobs i).table, key)) earlier := by
  have htally := h.taken _ i (h.holder_eq (by rw [hphase]; rfl))
  rw [hphase] at htally
  exact htally

/-- What has been read is what is still there. -/
theorem Consistent.reading (h : Consistent jobs s σ) {key : String} {seen : Option Record}
    {rest : List String} {n : ℕ} (hphase : σ.phase i = .read key seen rest n) :
    ∃ earlier, σ.turns ((jobs i).table, key) = ⟨i, false⟩ :: earlier ∧
      σ.shelf.content ((jobs i).table, key) =
        replay jobs (s.content ((jobs i).table, key)) earlier ∧
      σ.shelf.record ((jobs i).table, key) = seen := by
  have htally := h.taken _ i (h.holder_eq (by rw [hphase]; rfl))
  rw [hphase] at htally
  exact htally

section
variable {before next : Phase}

/-! ## Each step -/

/-- How the lock on a record and its content stand after a step that has to do with it. -/
def Settled (jobs : ι → Job rules) (i : ι) (key : String) (next : Phase) (s : Shelf) (σ : State ι) :
    Prop :=
  (σ.holder ((jobs i).table, key) = some i ∧ next.held = some key ∧
    next.Tallies jobs i (s.content ((jobs i).table, key)) (σ.shelf.content ((jobs i).table, key))
      (σ.turns ((jobs i).table, key))) ∨
  (σ.holder ((jobs i).table, key) = none ∧ next.held = none ∧
    σ.shelf.content ((jobs i).table, key) =
      replay jobs (s.content ((jobs i).table, key)) (σ.turns ((jobs i).table, key)))

theorem Settled.holder_iff {key : String} (hsettled : Settled jobs i key next s σ) {j : ι} :
    σ.holder ((jobs i).table, key) = some j ↔ j = i ∧ next.held = some key := by
  rcases hsettled with ⟨hholder, hheld, -⟩ | ⟨hholder, hheld, -⟩
  · rw [hholder, hheld]
    simp [eq_comm]
  · rw [hholder, hheld]
    simp

/-- After such a step the statement holds the lock on no other record. -/
theorem Settled.held_elsewhere {key : String} (hsettled : Settled jobs i key next s σ)
    {place : Place} (hplace : place ≠ ((jobs i).table, key)) :
    ¬(place.1 = (jobs i).table ∧ next.held = some place.2) := by
  rintro ⟨htable, hheld⟩
  rcases hsettled with ⟨-, hsome, -⟩ | ⟨-, hnone, -⟩
  · exact hplace (Prod.ext htable (Option.some.inj (hheld.symm.trans hsome)))
  · exact absurd (hnone.symm.trans hheld) (by simp)

variable [DecidableEq ι]

/-- A step outside all locks. -/
theorem Consistent.outside (h : Consistent jobs s σ) (hphase : σ.phase i = before)
    (hbefore : before.held = none) (hafter : next.held = none) (hfailing : ¬before.Failing) :
    Consistent jobs s (σ.goes i next) := by
  subst hphase
  have hother : ∀ place j, σ.holder place = some j → j ≠ i := by
    rintro place j hholder rfl
    rw [((h.holder_iff place j).1 hholder).2] at hbefore
    exact absurd hbefore (by simp)
  refine ⟨h.wellformed, fun place j => ?_, h.free, fun place j hholder => ?_, fun place t ht hfailed => ?_⟩
  · by_cases hj : j = i
    · subst hj
      rw [State.goes_phase_self, hafter]
      constructor
      · exact fun hholder => absurd rfl (hother place j hholder)
      · exact fun hheld => absurd hheld.2 (by simp)
    · rw [State.goes_phase_of_ne _ _ hj]
      exact h.holder_iff place j
  · rw [State.goes_phase_of_ne _ _ (hother place j hholder)]
    exact h.taken place j hholder
  · have hwho : t.who ≠ i := by
      intro hsame
      exact hfailing (hsame ▸ h.failing place t ht hfailed)
    rw [State.goes_phase_of_ne _ _ hwho]
    exact h.failing place t ht hfailed

/-- What a step that has to do with the lock on one record leaves as it was. -/
structure Touches (jobs : ι → Job rules) (i : ι) (key : String) (next : Phase) (σ σ' : State ι) :
    Prop where
  phase : σ'.phase = Function.update σ.phase i next
  before : (σ.phase i).held = none ∨ (σ.phase i).held = some key
  wellformed : σ'.shelf.Wellformed
  holder : ∀ place, place ≠ ((jobs i).table, key) → σ'.holder place = σ.holder place
  content : ∀ place, place ≠ ((jobs i).table, key) → σ'.shelf.content place = σ.shelf.content place
  turns : ∀ place, place ≠ ((jobs i).table, key) → σ'.turns place = σ.turns place
  failing : (σ.phase i).Failing → next.Failing
  marked : ∀ t ∈ σ'.turns ((jobs i).table, key), t.failed = true →
    t ∈ σ.turns ((jobs i).table, key) ∨ t.who = i ∧ next.Failing

theorem Touches.phase_self {key : String} (ht : Touches jobs i key next σ σ') :
    σ'.phase i = next := by
  rw [ht.phase, Function.update_self]

theorem Touches.phase_of_ne {key : String} (ht : Touches jobs i key next σ σ') {j : ι}
    (hj : j ≠ i) : σ'.phase j = σ.phase j := by
  rw [ht.phase, Function.update_of_ne hj]

theorem Touches.failing_of_failing {key : String} (ht : Touches jobs i key next σ σ') {j : ι}
    (hfailing : (σ.phase j).Failing) : (σ'.phase j).Failing := by
  by_cases hj : j = i
  · subst hj
    rw [ht.phase_self]
    exact ht.failing hfailing
  · rw [ht.phase_of_ne hj]
    exact hfailing

/-- Before the step it holds the lock on no other record either. -/
theorem Consistent.holder_ne_of_touches (h : Consistent jobs s σ) {key : String}
    (ht : Touches jobs i key next σ σ') {place : Place} (hplace : place ≠ ((jobs i).table, key)) :
    σ.holder place ≠ some i := by
  intro hholder
  obtain ⟨htable, hheld⟩ := (h.holder_iff place i).1 hholder
  rcases ht.before with hnone | hsome
  · exact absurd (hnone.symm.trans hheld) (by simp)
  · exact hplace (Prod.ext htable (Option.some.inj (hheld.symm.trans hsome)))

/-- The locks and the contents elsewhere are those of before, and so are the phases of the others. -/
theorem Consistent.touches (h : Consistent jobs s σ) {key : String}
    (hfree : ∀ j, σ.holder ((jobs i).table, key) = some j → j = i)
    (ht : Touches jobs i key next σ σ') (hsettled : Settled jobs i key next s σ') :
    Consistent jobs s σ' := by
  constructor
  case wellformed => exact ht.wellformed
  case holder_iff =>
    intro place j
    by_cases hplace : place = ((jobs i).table, key)
    · subst hplace
      rw [hsettled.holder_iff]
      by_cases hj : j = i
      · subst hj
        rw [ht.phase_self]
        exact and_congr_left' (iff_of_true rfl rfl)
      · rw [ht.phase_of_ne hj, ← h.holder_iff]
        exact iff_of_false (fun hmine => hj hmine.1) fun hholder => hj (hfree j hholder)
    · rw [ht.holder place hplace]
      by_cases hj : j = i
      · subst hj
        rw [ht.phase_self]
        exact iff_of_false (h.holder_ne_of_touches ht hplace) (hsettled.held_elsewhere hplace)
      · rw [ht.phase_of_ne hj]
        exact h.holder_iff place j
  case free =>
    intro place hholder
    by_cases hplace : place = ((jobs i).table, key)
    · subst hplace
      rcases hsettled with ⟨hmine, -⟩ | ⟨-, -, hcontent⟩
      · exact absurd (hholder.symm.trans hmine) (by simp)
      · exact hcontent
    · rw [ht.content place hplace, ht.turns place hplace]
      exact h.free place (by rw [← ht.holder place hplace, hholder])
  case taken =>
    intro place j hholder
    by_cases hplace : place = ((jobs i).table, key)
    · subst hplace
      obtain ⟨rfl, -⟩ := hsettled.holder_iff.1 hholder
      rcases hsettled with ⟨-, -, htally⟩ | ⟨hnone, -⟩
      · rw [ht.phase_self]
        exact htally
      · exact absurd (hnone.symm.trans hholder) (by simp)
    · rw [ht.holder place hplace] at hholder
      have hj : j ≠ i := by
        rintro rfl
        exact h.holder_ne_of_touches ht hplace hholder
      rw [ht.content place hplace, ht.turns place hplace, ht.phase_of_ne hj]
      exact h.taken place j hholder
  case failing =>
    intro place t hmem hfailed
    by_cases hplace : place = ((jobs i).table, key)
    · subst hplace
      rcases ht.marked t hmem hfailed with hold | ⟨hwho, hnext⟩
      · exact ht.failing_of_failing (h.failing _ t hold hfailed)
      · rw [hwho, ht.phase_self]
        exact hnext
    · rw [ht.turns place hplace] at hmem
      exact ht.failing_of_failing (h.failing place t hmem hfailed)

theorem Consistent.grant (h : Consistent jobs s σ) {key : String} {rest : List String} {n : ℕ}
    (hphase : σ.phase i = .between (key :: rest) n)
    (hfree : σ.holder ((jobs i).table, key) = none) :
    Consistent jobs s (σ.grant i ((jobs i).table, key) (.granted key rest n)) := by
  have hturns : (σ.grant i ((jobs i).table, key) (.granted key rest n)).turns ((jobs i).table, key) =
      ⟨i, false⟩ :: σ.turns ((jobs i).table, key) := Function.update_self ..
  have htouches : Touches jobs i key (.granted key rest n) σ
      (σ.grant i ((jobs i).table, key) (.granted key rest n)) := by
    refine ⟨rfl, Or.inl (by rw [hphase]; rfl), h.wellformed,
      fun place hplace => Function.update_of_ne hplace .., fun _ _ => rfl,
      fun place hplace => Function.update_of_ne hplace .., ?_, ?_⟩
    · rw [hphase]
      exact fun hfailing => nomatch hfailing
    · intro t ht hfailed
      rw [hturns] at ht
      rcases List.mem_cons.1 ht with rfl | ht
      · exact absurd hfailed (by simp)
      · exact Or.inl ht
  exact h.touches (fun j hj => absurd (hfree.symm.trans hj) (by simp)) htouches
    (Or.inl ⟨Function.update_self .., rfl, _, hturns, h.free _ hfree⟩)

theorem Consistent.release (h : Consistent jobs s σ) {key : String} {failure : Option Error}
    {rest : List String} {n : ℕ} (hphase : σ.phase i = .settled key failure rest n) :
    Consistent jobs s (σ.release i ((jobs i).table, key) (.after failure rest n)) := by
  have hheld : (σ.phase i).held = some key := by rw [hphase]; rfl
  have hholder := h.holder_eq hheld
  have htally := h.taken _ i hholder
  rw [hphase] at htally
  have htouches : Touches jobs i key (.after failure rest n) σ
      (σ.release i ((jobs i).table, key) (.after failure rest n)) := by
    refine ⟨rfl, Or.inr hheld, h.wellformed, fun place hplace => Function.update_of_ne hplace ..,
      fun _ _ => rfl, fun _ _ => rfl, ?_, fun t ht _ => Or.inl ht⟩
    rw [hphase]
    rintro ⟨⟩
    exact .done _
  exact h.touches (fun j hj => Option.some.inj (hj.symm.trans hholder)) htouches
    (Or.inr ⟨Function.update_self .., Phase.held_after .., htally⟩)

/-- A step of the one who holds the lock and keeps it. -/
theorem Consistent.inside (h : Consistent jobs s σ) {key : String} {shelf : Shelf}
    (hphase : σ.phase i = before) (hheld : before.held = some key) (hfailing : ¬before.Failing)
    (hnext : next.held = some key) (hwellformed : shelf.Wellformed)
    (hcontent : ∀ place, place ≠ ((jobs i).table, key) →
      shelf.content place = σ.shelf.content place)
    (htally : next.Tallies jobs i (s.content ((jobs i).table, key))
      (shelf.content ((jobs i).table, key)) (σ.turns ((jobs i).table, key))) :
    Consistent jobs s { σ.goes i next with shelf := shelf } := by
  subst hphase
  have hholder := h.holder_eq hheld
  have htouches : Touches jobs i key next σ { σ.goes i next with shelf := shelf } :=
    ⟨rfl, Or.inr hheld, hwellformed, fun _ _ => rfl, hcontent, fun _ _ => rfl,
      fun hbefore => absurd hbefore hfailing, fun t ht _ => Or.inl ht⟩
  exact h.touches (fun j hj => Option.some.inj (hj.symm.trans hholder)) htouches
    (Or.inl ⟨hholder, hnext, htally⟩)

/-- A turn that ends in an error. -/
theorem Consistent.fails (h : Consistent jobs s σ) {key : String} {e : Error} {rest : List String}
    {n : ℕ} {shelf : Shelf} (hphase : σ.phase i = before) (hheld : before.held = some key)
    (hwellformed : shelf.Wellformed) (hcontent : ∀ place, shelf.content place = σ.shelf.content place)
    {earlier : List (Turn ι)} (hturns : σ.turns ((jobs i).table, key) = ⟨i, false⟩ :: earlier)
    (htally : σ.shelf.content ((jobs i).table, key) =
      replay jobs (s.content ((jobs i).table, key)) earlier) :
    Consistent jobs s { σ.fails i ((jobs i).table, key) (.settled key (some e) rest n) with
      shelf := shelf } := by
  subst hphase
  have hholder := h.holder_eq hheld
  have hmarked : (σ.fails i ((jobs i).table, key) (.settled key (some e) rest n)).turns
      ((jobs i).table, key) = ⟨i, true⟩ :: earlier := by
    change Function.update σ.turns _ (markFailed (σ.turns _)) _ = _
    rw [Function.update_self, hturns]
    rfl
  have htouches : Touches jobs i key (.settled key (some e) rest n) σ
      { σ.fails i ((jobs i).table, key) (.settled key (some e) rest n) with shelf := shelf } := by
    refine ⟨rfl, Or.inr hheld, hwellformed, fun _ _ => rfl, fun place _ => hcontent place,
      fun place hplace => Function.update_of_ne hplace .., fun _ => .settled .., ?_⟩
    intro t ht hfailed
    rw [hmarked] at ht
    rcases List.mem_cons.1 ht with rfl | ht
    · exact Or.inr ⟨rfl, .settled ..⟩
    · rw [hturns]
      exact Or.inl (List.mem_cons_of_mem _ ht)
  refine h.touches (fun j hj => Option.some.inj (hj.symm.trans hholder)) htouches
    (Or.inl ⟨hholder, rfl, ?_⟩)
  change shelf.content _ = replay jobs _ _
  rw [hmarked, hcontent, htally]
  rfl

theorem Consistent.step (h : Consistent jobs s σ) (hstep : Step jobs i σ σ') :
    Consistent jobs s σ' := by
  cases hstep with
  | insert hjob hphase hauto => exact h.outside hphase rfl rfl (by rintro ⟨⟩)
  | check hjob hphase =>
    exact h.outside hphase rfl (Phase.held_checked _) (by rintro ⟨⟩)
  | scan hphase => exact h.outside hphase rfl (Phase.held_listed _) (by rintro ⟨⟩)
  | grant hphase hfree => exact h.grant hphase hfree
  | @read key rest n seen hphase hget =>
    obtain ⟨earlier, hturns, hcontent⟩ := h.granted hphase
    exact h.inside hphase rfl (by rintro ⟨⟩) rfl h.wellformed (fun _ _ => rfl)
      ⟨earlier, hturns, hcontent, Shelf.record_of_get hget⟩
  | unreadable hphase hget =>
    obtain ⟨earlier, hturns, hcontent⟩ := h.granted hphase
    exact h.fails hphase rfl h.wellformed (fun _ => rfl) hturns hcontent
  | @act key seen rest n done shelf hphase hrun =>
    obtain ⟨earlier, hturns, hcontent, hseen⟩ := h.reading hphase
    obtain ⟨hhere, hothers⟩ := Intent.content_of_perform h.wellformed hrun
    have htally : shelf.content ((jobs i).table, key) =
        replay jobs (s.content ((jobs i).table, key)) (σ.turns ((jobs i).table, key)) := by
      rw [hturns, hhere, ← hseen, Shelf.record, hcontent]
      rfl
    exact h.inside hphase rfl (by rintro ⟨⟩) rfl
      (Intent.wellformed_of_perform h.wellformed hrun) hothers htally
  | refused hphase hrun =>
    obtain ⟨earlier, hturns, hcontent, -⟩ := h.reading hphase
    exact h.fails hphase rfl (Intent.wellformed_of_perform h.wellformed hrun)
      (Intent.content_of_perform_error hrun) hturns hcontent
  | release hphase => exact h.release hphase
  | finish hphase => exact h.outside hphase rfl rfl (by rintro ⟨⟩)

/-! ## Whole runs -/

end

end Concurrent

end RecordShelf.Query
