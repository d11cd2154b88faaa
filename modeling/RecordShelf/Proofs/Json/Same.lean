import RecordShelf.Proofs.Json.ValueText

/-!
# Equality of values

Objects are equal when they have equally many fields and every field of the one is a field of the
other with an equal value. Where no name stands twice in an object, this equality is reflexive and
symmetric: equally many distinct names, all of them among the other ones, are all of these.
-/

namespace RecordShelf

/-! ## Numbers -/

theorem Double.same_self {x : Double} (h : x ≠ .nan) : x.same x = true := by
  cases x with
  | nan => exact absurd rfl h
  | signed negative rank bound => exact beq_self_eq_true _

theorem JsonNumber.toDouble_ne_nan (n : JsonNumber) : n.toDouble ≠ .nan := by
  cases n <;> exact Double.noConfusion

theorem JsonNumber.same_self (n : JsonNumber) : n.same n = true := by
  cases n with
  | integer value _ => exact beq_self_eq_true value
  | float x => exact Double.same_self (x := x.toDouble) Double.noConfusion

theorem JsonNumber.same_comm (m n : JsonNumber) : m.same n = n.same m := by
  cases m with
  | integer a _ =>
    cases n with
    | integer b _ => exact Bool.beq_comm
    | float => rfl
  | float x =>
    cases n with
    | integer => rfl
    | float y => exact Double.same_comm x.toDouble y.toDouble

namespace Json

/-! ## Fields -/

theorem sameFields_iff {fields : List (String × Json)} {r : Record} : sameFields fields r = true ↔
    ∀ field ∈ fields, ∃ w, r.get? field.1 = some w ∧ same field.2 w = true := by
  induction fields with
  | nil => simp [sameFields]
  | cons field fields ih =>
    obtain ⟨k, v⟩ := field
    rw [sameFields, Bool.and_eq_true, ih, List.forall_mem_cons]
    refine and_congr_left' ?_
    cases r.get? k <;> simp

theorem same_object_iff {r s : Record} : same (.object r) (.object s) = true ↔
    r.length = s.length ∧ ∀ field ∈ r, ∃ w, s.get? field.1 = some w ∧ same field.2 w = true := by
  rw [same, Bool.and_eq_true, beq_iff_eq, sameFields_iff]

/-- Of two equal objects the second has no field that the first has not. -/
theorem exists_get?_of_same {r s : Record} (hr : r.names.Nodup)
    (h : same (.object r) (.object s) = true) {field : String × Json} (hfield : field ∈ s) :
    ∃ v, r.get? field.1 = some v := by
  obtain ⟨hlength, hfields⟩ := same_object_iff.1 h
  have hsubset : r.names ⊆ s.names := by
    intro name hname
    obtain ⟨own, hown, rfl⟩ := List.mem_map.1 hname
    obtain ⟨w, hw, -⟩ := hfields own hown
    exact List.mem_map.2 ⟨_, Named.mem_of_get? hw, rfl⟩
  have hall : r.names.Perm s.names := by
    refine (List.subperm_of_subset hr hsubset).perm_of_length_le ?_
    rw [Named.names, Named.names, List.length_map, List.length_map, hlength]
  rw [← Option.ne_none_iff_exists', ne_eq, Named.get?_eq_none_iff, not_not]
  exact hall.mem_iff.2 (List.mem_map_of_mem hfield)

/-! ## Values -/

mutual

theorem same_self : ∀ {v : Json}, UniqueNames v → same v v = true
  | .null, _ => rfl
  | .bool b, _ => beq_self_eq_true b
  | .number n, _ => n.same_self
  | .string s, _ => beq_self_eq_true s
  | .array _, h => sameItems_self h
  | .object _, h => same_object_iff.2 ⟨rfl, fun field hfield =>
      ⟨field.2, Named.get?_of_mem h.1 hfield, fields_same_self h.2 field hfield⟩⟩

theorem sameItems_self : ∀ {items : List Json}, UniqueItems items → sameItems items items = true
  | [], _ => rfl
  | _ :: _, h => by
    rw [sameItems, same_self h.1, sameItems_self h.2]
    rfl

theorem fields_same_self : ∀ {fields : List (String × Json)}, UniqueFields fields →
    ∀ field ∈ fields, same field.2 field.2 = true
  | [], _ => fun _ hfield => absurd hfield List.not_mem_nil
  | (_, _) :: _, h => List.forall_mem_cons.2 ⟨same_self h.1, fields_same_self h.2⟩

end

mutual

theorem same_symm : ∀ {v w : Json}, UniqueNames v → UniqueNames w → same v w = true →
    same w v = true
  | .null, w, _, _, h => by
    cases w with
    | null => rfl
    | bool | number | string | array | object => exact absurd h Bool.false_ne_true
  | .bool a, w, _, _, h => by
    cases w with
    | bool b => exact Bool.beq_comm.trans h
    | null | number | string | array | object => exact absurd h Bool.false_ne_true
  | .number m, w, _, _, h => by
    cases w with
    | number n => exact (JsonNumber.same_comm n m).trans h
    | null | bool | string | array | object => exact absurd h Bool.false_ne_true
  | .string s, w, _, _, h => by
    cases w with
    | string t => exact Bool.beq_comm.trans h
    | null | bool | number | array | object => exact absurd h Bool.false_ne_true
  | .array items, w, hv, hw, h => by
    cases w with
    | array others => exact sameItems_symm hv hw h
    | null | bool | number | string | object => exact absurd h Bool.false_ne_true
  | .object r, w, hv, hw, h => by
    cases w with
    | object s =>
      obtain ⟨hlength, hfields⟩ := same_object_iff.1 h
      refine same_object_iff.2 ⟨hlength.symm, fun field hfield => ?_⟩
      obtain ⟨v, hget⟩ := exists_get?_of_same hv.1 h hfield
      have hmem := Named.mem_of_get? hget
      -- The field of this name in the second object is the one that the first was compared with.
      obtain ⟨w, hw', hsame⟩ := hfields _ hmem
      obtain rfl : field.2 = w :=
        Option.some.inj ((Named.get?_of_mem hw.1 hfield).symm.trans hw')
      exact ⟨v, hget, fields_same_symm hv.2 _ hmem (uniqueFields_iff.1 hw.2 field hfield) hsame⟩
    | null | bool | number | string | array => exact absurd h Bool.false_ne_true

theorem sameItems_symm : ∀ {items others : List Json}, UniqueItems items → UniqueItems others →
    sameItems items others = true → sameItems others items = true
  | [], [], _, _, _ => rfl
  | [], _ :: _, _, _, h => absurd h Bool.false_ne_true
  | _ :: _, [], _, _, h => absurd h Bool.false_ne_true
  | _ :: _, _ :: _, hitems, hothers, h => by
    rw [sameItems, Bool.and_eq_true] at h ⊢
    exact ⟨same_symm hitems.1 hothers.1 h.1, sameItems_symm hitems.2 hothers.2 h.2⟩

theorem fields_same_symm : ∀ {fields : List (String × Json)}, UniqueFields fields →
    ∀ field ∈ fields, ∀ {w : Json}, UniqueNames w → same field.2 w = true → same w field.2 = true
  | [], _ => fun _ hfield => absurd hfield List.not_mem_nil
  | (_, _) :: _, h => List.forall_mem_cons.2 ⟨fun hw hsame => same_symm h.1 hw hsame,
      fun field hfield _ => fields_same_symm h.2 field hfield⟩

end

theorem same_comm {v w : Json} (hv : UniqueNames v) (hw : UniqueNames w) : same v w = same w v :=
  Bool.eq_iff_iff.2 ⟨same_symm hv hw, same_symm hw hv⟩

end Json

end RecordShelf
