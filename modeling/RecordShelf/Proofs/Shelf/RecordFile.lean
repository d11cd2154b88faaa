import RecordShelf.Proofs.Json.ValueText
import RecordShelf.Shelf.RecordFile

/-!
# Record files read back

The bytes of a stored record decode to the record, and every decoded record can be stored again.
-/

namespace RecordShelf

namespace Json

theorem uniqueNames_extend {r s : Record} (hr : UniqueNames (.object r))
    (hs : ∀ field ∈ s, UniqueNames field.2) : UniqueNames (.object (r.extend s)) := by
  refine ⟨Named.nodup_names_extend hr.1 s, uniqueFields_iff.2 fun field hfield => ?_⟩
  exact (Named.mem_extend hfield).elim (uniqueFields_iff.1 hr.2 field) (hs field)

theorem depthFields_le_iff {fields : List (String × Json)} {d : ℕ} :
    depthFields fields ≤ d ↔ ∀ field ∈ fields, field.2.depth ≤ d := by
  induction fields with
  | nil => simp [depthFields]
  | cons field fields ih => rw [depthFields, max_le_iff, ih, List.forall_mem_cons]

/-- What is read with some fuel has no name twice in an object and stays within the depth. -/
structure ReadsProper (fuel : ℕ) : Prop where
  value : ∀ {depth : ℕ} {cs rest : List Char} {v : Json},
    readValue fuel depth cs = some (v, rest) → UniqueNames v ∧ v.depth ≤ depth
  items : ∀ {depth : ℕ} {cs rest : List Char} {items : List Json},
    readItems fuel depth cs = some (items, rest) → UniqueItems items ∧ depthItems items ≤ depth
  fields : ∀ {depth : ℕ} {cs rest : List Char} {fields : List (String × Json)},
    readFields fuel depth cs = some (fields, rest) →
      ∀ field ∈ fields, UniqueNames field.2 ∧ field.2.depth ≤ depth

section
variable {fuel depth : ℕ} {cs rest : List Char}

/-- What is read as a value without parts. -/
theorem proper_of_map {α : Type} {read : Option α} {f : α → Json × List Char} {v : Json}
    (h : read.map f = some (v, rest)) (hf : ∀ a, UniqueNames (f a).1 ∧ (f a).1.depth = 0) :
    UniqueNames v ∧ v.depth ≤ depth := by
  obtain ⟨a, -, heq⟩ := Option.map_eq_some_iff.1 h
  obtain ⟨hunique, hdepth⟩ := hf a
  rw [heq] at hunique hdepth
  exact ⟨hunique, hdepth.le.trans (Nat.zero_le depth)⟩

theorem ReadsProper.value_succ (ih : ReadsProper fuel) {v : Json}
    (h : readValue (fuel + 1) depth cs = some (v, rest)) : UniqueNames v ∧ v.depth ≤ depth := by
  rw [readValue] at h
  split at h
  · exact proper_of_map h fun _ => ⟨trivial, rfl⟩
  · exact proper_of_map h fun _ => ⟨trivial, rfl⟩
  · exact proper_of_map h fun _ => ⟨trivial, rfl⟩
  · exact proper_of_map h fun _ => ⟨trivial, rfl⟩
  · -- An array: its items stand one level deeper.
    cases depth with
    | zero => exact absurd h (Option.some_ne_none _).symm
    | succ d =>
      dsimp only at h
      split at h
      · cases h
        exact ⟨trivial, Nat.succ_pos d⟩
      · obtain ⟨⟨items, _⟩, hitems, heq⟩ := Option.map_eq_some_iff.1 h
        cases heq
        obtain ⟨hunique, hdepth⟩ := ih.items hitems
        exact ⟨hunique, Nat.succ_le_succ hdepth⟩
  · -- An object: of two fields with one name the later one is kept.
    cases depth with
    | zero => exact absurd h (Option.some_ne_none _).symm
    | succ d =>
      dsimp only at h
      split at h
      · cases h
        exact ⟨⟨List.nodup_nil, trivial⟩, Nat.succ_pos d⟩
      · obtain ⟨⟨fields, _⟩, hfields, heq⟩ := Option.map_eq_some_iff.1 h
        cases heq
        have hall := ih.fields hfields
        refine ⟨⟨Named.nodup_names_ofEntries fields, ?_⟩, Nat.succ_le_succ ?_⟩
        · exact uniqueFields_iff.2 fun field hmem => (hall field (Named.mem_ofEntries hmem)).1
        · exact depthFields_le_iff.2 fun field hmem => (hall field (Named.mem_ofEntries hmem)).2
  · exact proper_of_map h fun _ => ⟨trivial, rfl⟩

theorem ReadsProper.items_succ (ih : ReadsProper fuel) {items : List Json}
    (h : readItems (fuel + 1) depth cs = some (items, rest)) :
    UniqueItems items ∧ depthItems items ≤ depth := by
  rw [readItems] at h
  cases hv : readValue fuel depth cs with
  | none => simp [hv] at h
  | some result =>
    obtain ⟨v, after⟩ := result
    obtain ⟨hunique, hdepth⟩ := ih.value hv
    simp only [hv] at h
    split at h
    · cases h
      exact ⟨⟨hunique, trivial⟩, max_le hdepth (Nat.zero_le _)⟩
    · obtain ⟨⟨more, _⟩, hmore, heq⟩ := Option.map_eq_some_iff.1 h
      cases heq
      obtain ⟨huniques, hdepths⟩ := ih.items hmore
      exact ⟨⟨hunique, huniques⟩, max_le hdepth hdepths⟩
    · exact absurd h (Option.some_ne_none _).symm

theorem ReadsProper.fields_succ (ih : ReadsProper fuel) {fields : List (String × Json)}
    (h : readFields (fuel + 1) depth cs = some (fields, rest)) :
    ∀ field ∈ fields, UniqueNames field.2 ∧ field.2.depth ≤ depth := by
  rw [readFields] at h
  split at h
  · split at h
    · exact absurd h (Option.some_ne_none _).symm
    · split at h
      · split at h
        · exact absurd h (Option.some_ne_none _).symm
        · rename_i hv
          have hproper := ih.value hv
          split at h
          · cases h
            exact List.forall_mem_singleton.2 hproper
          · obtain ⟨⟨more, _⟩, hmore, heq⟩ := Option.map_eq_some_iff.1 h
            cases heq
            exact List.forall_mem_cons.2 ⟨hproper, ih.fields hmore⟩
          · exact absurd h (Option.some_ne_none _).symm
      · exact absurd h (Option.some_ne_none _).symm
  · exact absurd h (Option.some_ne_none _).symm

end

theorem readsProper (fuel : ℕ) : ReadsProper fuel := by
  induction fuel with
  | zero =>
    refine ⟨fun h => ?_, fun h => ?_, fun h => ?_⟩
    · exact absurd h (Option.some_ne_none _).symm
    · exact absurd h (Option.some_ne_none _).symm
    · exact absurd h (Option.some_ne_none _).symm
  | succ fuel ih => exact ⟨ih.value_succ, ih.items_succ, ih.fields_succ⟩

theorem read?_proper {s : String} {v : Json} (h : read? s = some v) :
    UniqueNames v ∧ v.depth ≤ depthLimit := by
  rw [read?, readWithin?] at h
  split at h
  · rename_i hv
    split_ifs at h
    cases h
    exact (readsProper _).value hv
  · exact absurd h (Option.some_ne_none _).symm

/-- What is read with some fuel is read alike where more nesting is allowed. -/
structure ReadsDeeper (fuel : ℕ) : Prop where
  value : ∀ {depth more : ℕ} {cs : List Char} {result : Json × List Char}, depth ≤ more →
    readValue fuel depth cs = some result → readValue fuel more cs = some result
  items : ∀ {depth more : ℕ} {cs : List Char} {result : List Json × List Char}, depth ≤ more →
    readItems fuel depth cs = some result → readItems fuel more cs = some result
  fields : ∀ {depth more : ℕ} {cs : List Char} {result : List (String × Json) × List Char},
    depth ≤ more → readFields fuel depth cs = some result → readFields fuel more cs = some result

section
variable {fuel depth more : ℕ} {cs : List Char}

theorem ReadsDeeper.value_succ (ih : ReadsDeeper fuel) {result : Json × List Char}
    (hle : depth ≤ more) (h : readValue (fuel + 1) depth cs = some result) :
    readValue (fuel + 1) more cs = some result := by
  rw [readValue] at h ⊢
  generalize skipBlanks cs = text at h ⊢
  split at h
  · exact h
  · exact h
  · exact h
  · exact h
  · cases depth with
    | zero => exact absurd h (Option.some_ne_none _).symm
    | succ d =>
      obtain ⟨m, rfl⟩ : ∃ m, more = m + 1 := ⟨more - 1, by omega⟩
      dsimp only at h ⊢
      split at h
      · exact h
      · obtain ⟨items, hitems, heq⟩ := Option.map_eq_some_iff.1 h
        rw [Option.map_eq_some_iff]
        exact ⟨items, ih.items (Nat.le_of_succ_le_succ hle) hitems, heq⟩
  · cases depth with
    | zero => exact absurd h (Option.some_ne_none _).symm
    | succ d =>
      obtain ⟨m, rfl⟩ : ∃ m, more = m + 1 := ⟨more - 1, by omega⟩
      dsimp only at h ⊢
      split at h
      · exact h
      · obtain ⟨fields, hfields, heq⟩ := Option.map_eq_some_iff.1 h
        rw [Option.map_eq_some_iff]
        exact ⟨fields, ih.fields (Nat.le_of_succ_le_succ hle) hfields, heq⟩
  · exact h

theorem ReadsDeeper.items_succ (ih : ReadsDeeper fuel) {result : List Json × List Char}
    (hle : depth ≤ more) (h : readItems (fuel + 1) depth cs = some result) :
    readItems (fuel + 1) more cs = some result := by
  rw [readItems] at h ⊢
  cases hv : readValue fuel depth cs with
  | none => simp [hv] at h
  | some first =>
    rw [hv] at h
    rw [ih.value hle hv]
    dsimp only at h ⊢
    split at h
    · exact h
    · obtain ⟨items, hitems, heq⟩ := Option.map_eq_some_iff.1 h
      exact Option.map_eq_some_iff.2 ⟨items, ih.items hle hitems, heq⟩
    · exact absurd h (Option.some_ne_none _).symm

theorem ReadsDeeper.fields_succ (ih : ReadsDeeper fuel) {result : List (String × Json) × List Char}
    (hle : depth ≤ more) (h : readFields (fuel + 1) depth cs = some result) :
    readFields (fuel + 1) more cs = some result := by
  rw [readFields] at h ⊢
  split at h
  · split at h
    · exact absurd h (Option.some_ne_none _).symm
    · split at h
      · split at h
        · exact absurd h (Option.some_ne_none _).symm
        · rename_i hv
          rw [ih.value hle hv]
          dsimp only
          split at h
          · exact h
          · obtain ⟨fields, hfields, heq⟩ := Option.map_eq_some_iff.1 h
            exact Option.map_eq_some_iff.2 ⟨fields, ih.fields hle hfields, heq⟩
          · exact absurd h (Option.some_ne_none _).symm
      · exact absurd h (Option.some_ne_none _).symm
  · exact absurd h (Option.some_ne_none _).symm

end

theorem readsDeeper (fuel : ℕ) : ReadsDeeper fuel := by
  induction fuel with
  | zero =>
    refine ⟨fun _ h => ?_, fun _ h => ?_, fun _ h => ?_⟩
    · exact absurd h (Option.some_ne_none _).symm
    · exact absurd h (Option.some_ne_none _).symm
    · exact absurd h (Option.some_ne_none _).symm
  | succ fuel ih => exact ⟨ih.value_succ, ih.items_succ, ih.fields_succ⟩

theorem readWithin?_mono {depth more : ℕ} {cs : List Char} {v : Json} (hle : depth ≤ more)
    (h : readWithin? depth cs = some v) : readWithin? more cs = some v := by
  rw [readWithin?] at h ⊢
  cases hv : readValue (2 * cs.length + 2) depth cs with
  | none => simp [hv] at h
  | some result =>
    rw [hv] at h
    rw [(readsDeeper _).value hle hv]
    exact h

/-- A text that is written and can be read is read as what was written. -/
theorem eq_of_read?_pretty {v w : Json} (hunique : UniqueNames v) (h : read? v.pretty = some w) :
    w = v := by
  rw [read?, pretty, String.toList_ofList] at h
  have hwritten := readWithin?_write Layout.pretty_blank hunique (le_max_right depthLimit v.depth) 0
  exact Option.some.inj ((readWithin?_mono (le_max_left depthLimit v.depth) h).symm.trans hwritten)

end Json

/-- A record that a file can hold: no object in it has a name twice and it is nested no deeper than
the reader allows. -/
structure Storable (r : Record) : Prop where
  unique : (Json.object r).UniqueNames
  depth : (Json.object r).depth ≤ Json.depthLimit

namespace RecordFile

theorem fromUTF8?_toUTF8 (s : String) : String.fromUTF8? s.toUTF8 = some s := by
  have hvalid : s.toUTF8.IsValidUTF8 := s.isValidUTF8
  rw [String.fromUTF8?, dif_pos hvalid]
  rfl

theorem isBlank_encode (r : Record) : isBlank (encode r) = false := by
  have hfirst : ∃ tail, (Json.object r).pretty = String.ofList ('{' :: tail) := by
    cases r with
    | nil => exact ⟨_, by rw [Json.pretty, Json.write]⟩
    | cons field r => exact ⟨_, by rw [Json.pretty, Json.write]⟩
  obtain ⟨tail, htext⟩ := hfirst
  have hbytes : (encode r).data.toList = 0x7b :: tail.flatMap String.utf8EncodeChar := by
    rw [encode, htext, String.toUTF8_eq_toByteArray, String.toByteArray_ofList, List.utf8Encode,
      List.toList_data_toByteArray]
    rfl
  rw [isBlank, hbytes]
  rfl

/-- A stored record is read back as it is. -/
theorem decode_encode {r : Record} (h : Storable r) : decode (encode r) = some r := by
  rw [decode, isBlank_encode, if_neg Bool.false_ne_true, encode, Json.ofBytes?, fromUTF8?_toUTF8,
    Option.bind_some, Json.read?_pretty h.unique h.depth, Option.bind_some]
  rfl

/-- A stored record that can be read is read as it is; one nested too deeply is not read at all. -/
theorem eq_of_decode_encode {r found : Record} (hr : (Json.object r).UniqueNames)
    (h : decode (encode r) = some found) : found = r := by
  rw [decode, isBlank_encode, if_neg Bool.false_ne_true, encode, Json.ofBytes?, fromUTF8?_toUTF8,
    Option.bind_some] at h
  obtain ⟨v, hv, hfound⟩ := Option.bind_eq_some_iff.1 h
  rw [Json.eq_of_read?_pretty hr hv] at hfound
  exact (Option.some.inj hfound).symm

theorem storable_of_decode {content : ByteArray} {r : Record} (h : decode content = some r) :
    Storable r := by
  rw [decode] at h
  split_ifs at h
  obtain ⟨v, hv, hr⟩ := Option.bind_eq_some_iff.1 h
  obtain ⟨s, -, hread⟩ := Option.bind_eq_some_iff.1 hv
  obtain ⟨hunique, hdepth⟩ := Json.read?_proper hread
  cases v with
  | object fields =>
    cases hr
    exact ⟨hunique, hdepth⟩
  | null | bool | number | string | array => exact absurd hr (Option.some_ne_none r).symm

/-- A stored record that is nested too deeply is not read. -/
theorem decode_encode_of_deep {r : Record} (hr : (Json.object r).UniqueNames)
    (hdeep : Json.depthLimit < (Json.object r).depth) : decode (encode r) = none := by
  cases hfound : decode (encode r) with
  | none => rfl
  | some found =>
    have hstorable := storable_of_decode hfound
    rw [eq_of_decode_encode hr hfound] at hstorable
    exact absurd hstorable.depth (Nat.not_le_of_lt hdeep)

end RecordFile

end RecordShelf
