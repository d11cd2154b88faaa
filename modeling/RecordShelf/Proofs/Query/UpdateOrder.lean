import RecordShelf.Proofs.Query.TextOrder

/-!
# Params of an UPDATE in text order

The binder of the SET items meets only the items that the grammar can read, and the binder of the
WHERE terms starts behind all placeholders of the SET items. So a param comes from its place in the
text unless placeholders stand where no binder meets them: before the items, in items before it
that cannot be read, or between the items and the terms.
-/

namespace RecordShelf.Query
open Sql
variable {text : List Char} {ph : Placeholder}

/-! ## SET items -/

/-- The placeholders in items are those of the items that can be read, one for each operand, and
those of the others. -/
theorem marks_items {items : List Piece} (h : ∀ e ∈ items, Nameless e.body) :
    Piece.total items = ((items.filterMap Piece.assignment?).map fun a => a.value.taken).sum +
      ((items.filter fun e => e.assignment?.isNone).map fun e => (placeholders e.body).length).sum := by
  induction items with
  | nil => rfl
  | cons e items ih =>
    obtain ⟨he, hitems⟩ := List.forall_mem_cons.1 h
    have hrest := ih hitems
    rw [Piece.total] at hrest ⊢
    rw [List.map_cons, List.sum_cons, hrest]
    cases hread : e.assignment? with
    | none =>
      rw [List.filterMap_cons_none hread, List.filter_cons_of_pos (by simp [hread]), List.map_cons,
        List.sum_cons, length_placeholders he]
      omega
    | some a =>
      rw [List.filterMap_cons_some hread, List.filter_cons_of_neg (by simp [hread]), List.map_cons,
        List.sum_cons, (ends_assignment hread).signs]
      omega

theorem sum_unread_eq_zero {items : List Piece} :
    ((items.filter fun e => e.assignment?.isNone).map fun e => (placeholders e.body).length).sum = 0 ↔
      ∀ e ∈ items, e.assignment? = none → placeholders e.body = [] := by
  rw [List.sum_eq_zero_iff_forall_eq_nat, List.forall_mem_map]
  simp only [List.mem_filter, Option.isNone_iff_eq_none, and_imp, List.length_eq_zero_iff]

theorem takes_assignment {s : Update} {earlier later : List Assignment} {a : Assignment}
    (hs : s.assignments = earlier ++ a :: later) (ha : a.value = .placeholder ph) :
    Takes (fun params => (setValues s params)[earlier.length]?)
      (earlier.map fun a => a.value.taken).sum := by
  intro values _
  dsimp only
  rw [setValues, hs]
  refine (Binder.getElem?_run (fun cursor a => Binder.bind_positional cursor a.value) 0 earlier a
    later).trans ?_
  rw [Nat.zero_add, Binder.bindAssignment, ha, Binder.bind_placeholder]

/-- A placeholder in a SET item takes the param of its place in the text exactly when no placeholder
stands before the items or in an item before it that cannot be read. -/
theorem binds_item {s : Update} {u : UpdateParts} (hu : u.Of text s) {earlier later : List Piece}
    {item : Piece} {a : Assignment} (hitems : u.items = earlier ++ item :: later)
    (hread : item.assignment? = some a) (ha : a.value = .placeholder ph) :
    Binds text item ph
      (fun params => (setValues s params)[(earlier.filterMap Piece.assignment?).length]?)
      ((earlier.filterMap Piece.assignment?).map fun a => a.value.taken).sum
      (placeholders u.set.before = [] ∧
        ∀ e ∈ earlier, e.assignment? = none → placeholders e.body = []) := by
  have hplaced : ∀ e ∈ earlier ++ item :: later, e.Placed text := hitems ▸ hu.placed_item
  have hends : Ends item.body (.placeholder ph) := ha ▸ ends_assignment hread
  have hassignments : s.assignments =
      earlier.filterMap Piece.assignment? ++ a :: later.filterMap Piece.assignment? := by
    rw [hu.assignments, hitems, List.filterMap_append, List.filterMap_cons_some hread]
  refine binds_of_takes (hplaced item (by simp)) hends (takes_assignment hassignments ha)
    fun hname => ?_
  have hearlier : ∀ e ∈ earlier, Nameless e.body := fun e he =>
    (hplaced e (List.mem_append_left _ he)).nameless_body hname
  have hcounted := Piece.counted_split hu.set.clean UpdateParts.calm_comma
  rw [← UpdateParts.items, hitems] at hcounted
  rw [hcounted.before, marks_items hearlier, ← length_placeholders (hu.set.nameless_before hname),
    ← List.length_eq_zero_iff]
  rw [← sum_unread_eq_zero]
  omega

/-! ## WHERE terms -/

theorem takes_condition {s : Update} {earlier later : List Condition} {field : String}
    {op : CompareOp} (hs : s.conditions = earlier ++ .compare field op (.placeholder ph) :: later) :
    Takes (fun params => (whereValues s params)[earlier.length]?)
      (s.setPlaceholders + (earlier.map Condition.taken).sum) := by
  intro values _
  dsimp only
  rw [whereValues, hs]
  exact Binder.getElem?_run_compare s.setPlaceholders earlier later

/-- A placeholder in a WHERE comparison takes the param of its place in the text exactly when the
SET items hold all placeholders that stand before the terms. -/
theorem binds_term {s : Update} {u : UpdateParts} (hu : u.Of text s) {earlier later : List Piece}
    {term : Piece} {field : String} {op : CompareOp} (hterms : u.terms = earlier ++ term :: later)
    (hread : term.condition = .compare field op (.placeholder ph)) :
    Binds text term ph (fun params => (whereValues s params)[earlier.length]?)
      (s.setPlaceholders + (earlier.map fun e => e.condition.taken).sum)
      (∀ w ∈ u.where?, (placeholders w.before).length = s.setPlaceholders) := by
  have hconditions : s.conditions = earlier.map Piece.condition ++
      .compare field op (.placeholder ph) :: later.map Piece.condition := by
    rw [hu.conditions, hterms, List.map_append, List.map_cons, hread]
  have htakes := takes_condition hconditions
  rw [List.length_map, List.map_map] at htakes
  obtain ⟨w, hwhere, hbody⟩ := UpdateParts.exists_where (hterms ▸ List.mem_append_cons_self)
  rw [hbody] at hterms
  simp only [hwhere, Option.mem_some_iff, forall_eq']
  exact binds_whereTerm (hu.where? w hwhere) hterms hread htakes

/-! ## Whole statements -/

/-- Where an UPDATE takes its params, when the first of them is no record: the values of the readable
items and of the terms are bound in two runs, and each placeholder in them takes the param at the
number of placeholders that its run has met before it. -/
theorem update_binds {sql : String} {s : Update} (h : parse sql = .ok (.update s)) :
    ∃ u, updateParts? sql.toList = some u ∧ u.Of sql.toList s ∧
      (∀ params : Params, params.record? = none →
        bindAssignments s params =
            ((s.assignments.zip (setValues s params)).filterMap fun bound =>
              bound.2.map fun v => (bound.1.column, v), s.setPlaceholders) ∧
          (Predicate.bindAll (.startingAt params s.setPlaceholders) s.conditions).1 =
            (s.conditions.zip (whereValues s params)).filterMap fun bound =>
              predicate? bound.1 bound.2) ∧
      (∀ earlier item later a ph, u.items = earlier ++ item :: later →
        item.assignment? = some a → a.value = .placeholder ph →
          Binds sql.toList item ph
            (fun params => (setValues s params)[(earlier.filterMap Piece.assignment?).length]?)
            ((earlier.filterMap Piece.assignment?).map fun a => a.value.taken).sum
            (placeholders u.set.before = [] ∧
              ∀ e ∈ earlier, e.assignment? = none → placeholders e.body = [])) ∧
      ∀ earlier term later field op ph, u.terms = earlier ++ term :: later →
        term.condition = .compare field op (.placeholder ph) →
          Binds sql.toList term ph (fun params => (whereValues s params)[earlier.length]?)
            (s.setPlaceholders + (earlier.map fun e => e.condition.taken).sum)
            (∀ w ∈ u.where?, (placeholders w.before).length = s.setPlaceholders) := by
  obtain ⟨u, hparts, hu⟩ := exists_updateParts h
  refine ⟨u, hparts, hu, fun params hparams => ?_, ?_, ?_⟩
  · exact ⟨bindAssignments_eq s hparams, bindAll_eq _ _⟩
  · intro earlier item later a ph hitems hread ha
    exact binds_item hu hitems hread ha
  · intro earlier term later field op ph hterms hread
    exact binds_term hu hterms hread

theorem update_binds_note : ∃ s,
    parse "UPDATE notes SET title = ?, done = ? WHERE id = ?" = .ok (.update s) ∧
      Takes (fun params => (setValues s params)[1]?) 1 ∧
      Takes (fun params => (whereValues s params)[0]?) 2 := by
  let s : Update := ⟨"notes", [⟨"title", .placeholder .positional⟩,
    ⟨"done", .placeholder .positional⟩], 2, [.compare "id" .eq (.placeholder .positional)]⟩
  have hparse : parse "UPDATE notes SET title = ?, done = ? WHERE id = ?" = .ok (.update s) := by
    decide +kernel
  obtain ⟨u, hparts, -, -, hitem, hterm⟩ := update_binds hparse
  have hparts' : updateParts? "UPDATE notes SET title = ?, done = ? WHERE id = ?".toList =
      some ⟨⟨"UPDATE notes SET ".toList, "title = ?, done = ?".toList⟩,
        some ⟨"UPDATE notes SET title = ?, done = ? WHERE ".toList, "id = ?".toList⟩⟩ := by
    decide +kernel
  obtain rfl := Option.some.inj (hparts.symm.trans hparts')
  have hdone := hitem [⟨"UPDATE notes SET ".toList, "title = ?".toList⟩]
    ⟨"UPDATE notes SET title = ?, ".toList, "done = ?".toList⟩ []
    ⟨"done", .placeholder .positional⟩ .positional (by decide +kernel) (by decide +kernel) rfl
  have hid := hterm [] ⟨"UPDATE notes SET title = ?, done = ? WHERE ".toList, "id = ?".toList⟩ []
    "id" .eq .positional (by decide +kernel) (by decide +kernel)
  exact ⟨s, hparse, (hdone.takes 1).2 (by decide +kernel), (hid.takes 2).2 (by decide +kernel)⟩

/-- The only assignment that can be read stands behind one placeholder and takes the first param. -/
theorem update_out_of_order : ∃ s,
    parse "UPDATE t SET a = a + ?, b = ? WHERE id = ?" = .ok (.update s) ∧
      placeholders "UPDATE t SET a = a + ?, b = ".toList = [.positional] ∧
      (bindAssignments s (.positional [.ofNat 1, .ofNat 2, .ofNat 3])).1 = [("b", .ofNat 1)] :=
  ⟨⟨"t", [⟨"b", .placeholder .positional⟩], 2, [.compare "id" .eq (.placeholder .positional)]⟩,
    by decide +kernel, by decide +kernel, rfl⟩

end RecordShelf.Query
