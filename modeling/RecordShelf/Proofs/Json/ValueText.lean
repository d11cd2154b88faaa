import RecordShelf.Json.Writer
import RecordShelf.Proofs.Json.NumberText
import RecordShelf.Proofs.Named

/-!
# Values read back

The text of a value, in any layout that separates its parts by blanks only, is read back as the
same value, provided that no object in it has a name twice and that it is nested no deeper than
the reader allows.
-/

namespace RecordShelf.Json

/-! ## Strings -/

theorem hexValue?_hexDigit : ∀ n, n < 16 → hexValue? (hexDigit n) = some n := by
  decide

theorem readChars_escapeChar (c : Char) (rest : List Char) :
    readChars (escapeChar c ++ rest) = andThen c (readChars rest) := by
  unfold escapeChar
  split_ifs with h1 h2 h3 h4 h5 h6 h7 h8
  · subst h1; rfl
  · subst h2; rfl
  · subst h3; rfl
  · subst h4; rfl
  · subst h5; rfl
  · subst h6; rfl
  · subst h7; rfl
  · have hhigh := hexValue?_hexDigit (c.toNat / 16) (by omega)
    have hlow := hexValue?_hexDigit (c.toNat % 16) (by omega)
    have hzero : hexValue? '0' = some 0 := rfl
    have hvalue : c.toNat / 16 * 16 + c.toNat % 16 = c.toNat := by omega
    -- The code of a control character is below both halves of the surrogates.
    have hfirst : ¬(0xD800 ≤ c.toNat ∧ c.toNat < 0xDC00) := by omega
    have hsecond : ¬(0xDC00 ≤ c.toNat ∧ c.toNat < 0xE000) := by omega
    simp [readChars, hex4?, hhigh, hlow, hzero, hvalue, hfirst, hsecond]
  · simp [readChars, h2, h8]

theorem readChars_flatMap (cs rest : List Char) :
    readChars (cs.flatMap escapeChar ++ '"' :: rest) = some (cs, rest) := by
  induction cs with
  | nil => rfl
  | cons c cs ih =>
    rw [List.flatMap_cons, List.append_assoc, readChars_escapeChar, ih]
    rfl

/-! ## Blanks -/

theorem skipBlanks_append {bs : List Char} (h : ∀ c ∈ bs, isBlank c = true) (cs : List Char) :
    skipBlanks (bs ++ cs) = skipBlanks cs :=
  List.dropWhile_append_of_pos h

theorem skipBlanks_cons {c : Char} (h : isBlank c = false) (cs : List Char) :
    skipBlanks (c :: cs) = c :: cs := by
  simp [skipBlanks, h]

theorem numberEnd_blanks {bs rest : List Char} (h : ∀ c ∈ bs, isBlank c = true)
    (hrest : NumberEnd rest) : NumberEnd (bs ++ rest) := by
  cases bs with
  | nil => exact hrest
  | cons b bs =>
    have hb := h b List.mem_cons_self
    intro c hc
    rw [List.cons_append, List.head?_cons, Option.mem_some_iff] at hc
    subst hc
    simp only [isBlank, Bool.or_eq_true, beq_iff_eq] at hb
    rcases hb with ((rfl | rfl) | rfl) | rfl <;> decide

theorem numberEnd_cons {c : Char} (h : c.isDigit = false ∧ c ≠ '.' ∧ c ≠ 'e' ∧ c ≠ 'E')
    (rest : List Char) : NumberEnd (c :: rest) := by
  intro d hd
  rw [List.head?_cons, Option.mem_some_iff] at hd
  exact hd ▸ h

theorem readValue_blanks {bs : List Char} (h : ∀ c ∈ bs, isBlank c = true) (fuel depth : ℕ)
    (cs : List Char) : readValue fuel depth (bs ++ cs) = readValue fuel depth cs := by
  cases fuel with
  | zero => rfl
  | succ fuel =>
    unfold readValue
    rw [skipBlanks_append h]

theorem readItems_blanks {bs : List Char} (h : ∀ c ∈ bs, isBlank c = true) (fuel depth : ℕ)
    (cs : List Char) : readItems fuel depth (bs ++ cs) = readItems fuel depth cs := by
  cases fuel with
  | zero => rfl
  | succ fuel =>
    unfold readItems
    rw [readValue_blanks h]

theorem readFields_blanks {bs : List Char} (h : ∀ c ∈ bs, isBlank c = true) (fuel depth : ℕ)
    (cs : List Char) : readFields fuel depth (bs ++ cs) = readFields fuel depth cs := by
  cases fuel with
  | zero => rfl
  | succ fuel =>
    unfold readFields
    rw [skipBlanks_append h]

/-- A layout that puts only blanks between the parts of a value. -/
structure Layout.Blank (layout : Layout) : Prop where
  newline : ∀ level, ∀ c ∈ layout.newline level, isBlank c = true
  afterColon : ∀ c ∈ layout.afterColon, isBlank c = true

theorem Layout.pretty_blank : Layout.pretty.Blank := by
  refine ⟨fun level c hc => ?_, fun c hc => ?_⟩
  · rcases List.mem_cons.1 hc with rfl | hc
    · rfl
    · rw [List.eq_of_mem_replicate hc]
      rfl
  · rw [List.mem_singleton.1 hc]
    rfl

/-! ## The first character of a value -/

theorem readNumber?_head {cs : List Char} {r : JsonNumber × List Char}
    (h : readNumber? cs = some r) : ∃ c tail, cs = c :: tail ∧ (c = '-' ∨ c.isDigit = true) := by
  cases cs with
  | nil =>
    have hnil : readNumber? [] = none := rfl
    rw [hnil] at h
    exact absurd h (Option.some_ne_none r).symm
  | cons c tail =>
    refine ⟨c, tail, rfl, ?_⟩
    by_contra hc
    obtain ⟨hminus, hdigit⟩ := not_or.1 hc
    have htake : takeMinus (c :: tail) = (false, c :: tail) :=
      @takeMinus_withSign false c tail hminus
    have hdigits : takeDigits ([] ++ c :: tail) = ([], c :: tail) :=
      takeDigits_append (by simp) (noDigitFirst_cons (Bool.eq_false_iff.2 hdigit))
    rw [List.nil_append] at hdigits
    simp [readNumber?, htake, hdigits] at h

theorem ne_of_number_head {c d : Char} (hc : c = '-' ∨ c.isDigit = true) (hminus : d ≠ '-')
    (hdigit : d.isDigit = false) : c ≠ d := by
  rintro rfl
  rcases hc with hc | hc
  · exact hminus hc
  · exact absurd hc (Bool.eq_false_iff.1 hdigit)

theorem readValue_number (fuel depth : ℕ) (n : JsonNumber) {rest : List Char}
    (hrest : NumberEnd rest) :
    readValue (fuel + 1) depth (n.write ++ rest) = some (.number n, rest) := by
  have hread := readNumber?_write n hrest
  obtain ⟨c, tail, htext, hc⟩ := readNumber?_head hread
  have hne : ∀ d, d ≠ '-' → d.isDigit = false → c ≠ d := fun d => ne_of_number_head hc
  have hblank : isBlank c = false := by
    simp [isBlank, hne ' ' (by decide) (by decide), hne '\t' (by decide) (by decide),
      hne '\n' (by decide) (by decide), hne '\r' (by decide) (by decide)]
  rw [htext] at hread ⊢
  rw [readValue, skipBlanks_cons hblank]
  split
  · rename_i heq
    exact absurd (List.cons.inj heq).1 (hne _ (by decide) (by decide))
  · rename_i heq
    exact absurd (List.cons.inj heq).1 (hne _ (by decide) (by decide))
  · rename_i heq
    exact absurd (List.cons.inj heq).1 (hne _ (by decide) (by decide))
  · rename_i heq
    exact absurd (List.cons.inj heq).1 (hne _ (by decide) (by decide))
  · rename_i heq
    exact absurd (List.cons.inj heq).1 (hne _ (by decide) (by decide))
  · rename_i heq
    exact absurd (List.cons.inj heq).1 (hne _ (by decide) (by decide))
  · rw [hread]
    rfl

theorem write_head (layout : Layout) (level : ℕ) (v : Json) :
    ∃ c tail, write layout level v = c :: tail ∧ isBlank c = false ∧ c ≠ ']' := by
  cases v with
  | null => exact ⟨_, _, by rw [write], by decide, by decide⟩
  | bool b => cases b <;> exact ⟨_, _, by rw [write], by decide, by decide⟩
  | number n =>
    have hend : NumberEnd [] := by simp [NumberEnd]
    have hread := readNumber?_write n hend
    rw [List.append_nil] at hread
    obtain ⟨c, tail, htext, hc⟩ := readNumber?_head hread
    have hne : ∀ d, d ≠ '-' → d.isDigit = false → c ≠ d := fun d => ne_of_number_head hc
    refine ⟨c, tail, by rw [write, htext], ?_, hne ']' (by decide) (by decide)⟩
    simp [isBlank, hne ' ' (by decide) (by decide), hne '\t' (by decide) (by decide),
      hne '\n' (by decide) (by decide), hne '\r' (by decide) (by decide)]
  | string s => exact ⟨_, _, by rw [write, writeString], by decide, by decide⟩
  | array items => cases items <;> exact ⟨_, _, by rw [write], by decide, by decide⟩
  | object fields => cases fields <;> exact ⟨_, _, by rw [write], by decide, by decide⟩

/-! ## Values -/

mutual

/-- No object of the value has a name twice. -/
def UniqueNames : Json → Prop
  | .array items => UniqueItems items
  | .object fields => (Named.names fields).Nodup ∧ UniqueFields fields
  | _ => True

def UniqueItems : List Json → Prop
  | [] => True
  | v :: rest => UniqueNames v ∧ UniqueItems rest

def UniqueFields : List (String × Json) → Prop
  | [] => True
  | (_, v) :: rest => UniqueNames v ∧ UniqueFields rest

end

theorem uniqueFields_iff {fields : List (String × Json)} :
    UniqueFields fields ↔ ∀ field ∈ fields, UniqueNames field.2 := by
  induction fields with
  | nil => simp [UniqueFields]
  | cons field fields ih => rw [UniqueFields, ih, List.forall_mem_cons]

theorem uniqueItems_iff {items : List Json} : UniqueItems items ↔ ∀ v ∈ items, UniqueNames v := by
  induction items with
  | nil => simp [UniqueItems]
  | cons v items ih => rw [UniqueItems, ih, List.forall_mem_cons]

/-! ## Steps of the reader -/

theorem readItems_last {fuel depth : ℕ} {cs after rest : List Char} {v : Json}
    (hv : readValue fuel depth cs = some (v, after)) (hafter : skipBlanks after = ']' :: rest) :
    readItems (fuel + 1) depth cs = some ([v], rest) := by
  rw [readItems, hv]
  simp only [hafter]

theorem readItems_comma {fuel depth : ℕ} {cs after more rest : List Char} {v : Json}
    {items : List Json} (hv : readValue fuel depth cs = some (v, after))
    (hafter : skipBlanks after = ',' :: more)
    (hmore : readItems fuel depth more = some (items, rest)) :
    readItems (fuel + 1) depth cs = some (v :: items, rest) := by
  rw [readItems, hv]
  simp only [hafter, hmore, Option.map_some]

theorem readValue_array {fuel depth : ℕ} {cs tail rest : List Char} {c : Char} {items : List Json}
    (hcs : skipBlanks cs = c :: tail) (hc : c ≠ ']')
    (hitems : readItems fuel depth (c :: tail) = some (items, rest)) :
    readValue (fuel + 1) (depth + 1) ('[' :: cs) = some (.array items, rest) := by
  rw [readValue, skipBlanks_cons (by decide)]
  simp only [hcs]
  split
  · rename_i heq
    exact absurd (List.cons.inj heq).1 hc
  · rw [hitems, Option.map_some]

theorem readFields_last {fuel depth : ℕ} {k : String} {cs after rest : List Char} {v : Json}
    (hv : readValue fuel depth cs = some (v, after)) (hafter : skipBlanks after = '}' :: rest) :
    readFields (fuel + 1) depth (writeString k ++ ':' :: cs) = some ([(k, v)], rest) := by
  rw [writeString, List.cons_append, List.append_assoc, List.singleton_append, readFields,
    skipBlanks_cons (by decide)]
  simp only [readChars_flatMap, skipBlanks_cons (c := ':') (by decide), hv, hafter,
    String.ofList_toList]

theorem readFields_comma {fuel depth : ℕ} {k : String} {cs after more rest : List Char} {v : Json}
    {fields : List (String × Json)} (hv : readValue fuel depth cs = some (v, after))
    (hafter : skipBlanks after = ',' :: more)
    (hmore : readFields fuel depth more = some (fields, rest)) :
    readFields (fuel + 1) depth (writeString k ++ ':' :: cs) = some ((k, v) :: fields, rest) := by
  rw [writeString, List.cons_append, List.append_assoc, List.singleton_append, readFields,
    skipBlanks_cons (by decide)]
  simp only [readChars_flatMap, skipBlanks_cons (c := ':') (by decide), hv, hafter, hmore,
    Option.map_some, String.ofList_toList]

theorem readValue_object {fuel depth : ℕ} {bs cs rest : List Char} {k : String}
    {fields : List (String × Json)} (hbs : ∀ c ∈ bs, isBlank c = true)
    (hfields : readFields fuel depth (writeString k ++ cs) = some (fields, rest)) :
    readValue (fuel + 1) (depth + 1) ('{' :: (bs ++ (writeString k ++ cs))) =
      some (.object (Named.ofEntries fields), rest) := by
  rw [writeString, List.cons_append] at hfields ⊢
  rw [readValue, skipBlanks_cons (by decide)]
  simp only [skipBlanks_append hbs, skipBlanks_cons (c := '"') (by decide)]
  split
  · rename_i heq
    exact absurd (List.cons.inj heq).1 (by decide)
  · rw [hfields, Option.map_some]

/-! ## Whole values -/

theorem numberEnd_items {layout : Layout} (hlayout : layout.Blank) (level : ℕ) (items : List Json)
    (rest : List Char) :
    NumberEnd (writeItems layout level items ++ (layout.newline level ++ ']' :: rest)) := by
  cases items with
  | nil =>
    rw [writeItems, List.nil_append]
    exact numberEnd_blanks (hlayout.newline level) (numberEnd_cons (by decide) rest)
  | cons v items =>
    rw [writeItems]
    exact numberEnd_cons (by decide) _

theorem numberEnd_fields {layout : Layout} (hlayout : layout.Blank) (level : ℕ)
    (fields : List (String × Json)) (rest : List Char) :
    NumberEnd (writeFields layout level fields ++ (layout.newline level ++ '}' :: rest)) := by
  cases fields with
  | nil =>
    rw [writeFields, List.nil_append]
    exact numberEnd_blanks (hlayout.newline level) (numberEnd_cons (by decide) rest)
  | cons field fields =>
    rw [writeFields]
    exact numberEnd_cons (by decide) _

/-- Everything whose text is no longer than the fuel is read back. -/
structure ReadsBack (layout : Layout) (fuel : ℕ) : Prop where
  value : ∀ (v : Json) (level depth : ℕ) (rest : List Char), UniqueNames v → v.depth ≤ depth →
    (write layout level v).length ≤ fuel → NumberEnd rest →
    readValue fuel depth (write layout level v ++ rest) = some (v, rest)
  items : ∀ (v : Json) (items : List Json) (level depth : ℕ) (rest : List Char),
    UniqueItems (v :: items) → depthItems (v :: items) ≤ depth →
    (write layout (level + 1) v).length + (writeItems layout level items).length < fuel →
    readItems fuel depth (write layout (level + 1) v ++
      (writeItems layout level items ++ (layout.newline level ++ ']' :: rest))) =
      some (v :: items, rest)
  fields : ∀ (k : String) (v : Json) (fields : List (String × Json)) (level depth : ℕ)
    (rest : List Char),
    UniqueFields ((k, v) :: fields) → depthFields ((k, v) :: fields) ≤ depth →
    (write layout (level + 1) v).length + (writeFields layout level fields).length < fuel →
    readFields fuel depth (writeString k ++ ':' :: (layout.afterColon ++
      (write layout (level + 1) v ++
        (writeFields layout level fields ++ (layout.newline level ++ '}' :: rest))))) =
      some ((k, v) :: fields, rest)

section
variable {layout : Layout} {fuel : ℕ}

theorem ReadsBack.value_succ (hlayout : layout.Blank) (ih : ReadsBack layout fuel) (v : Json)
    (level depth : ℕ) (rest : List Char) (hunique : UniqueNames v) (hdepth : v.depth ≤ depth)
    (hfuel : (write layout level v).length ≤ fuel + 1) (hrest : NumberEnd rest) :
    readValue (fuel + 1) depth (write layout level v ++ rest) = some (v, rest) := by
  cases v with
  | null => rw [write]; rfl
  | bool b => cases b <;> rw [write] <;> rfl
  | number n =>
    rw [write]
    exact readValue_number fuel depth n hrest
  | string s =>
    rw [write, writeString, List.cons_append, List.append_assoc, List.singleton_append, readValue,
      skipBlanks_cons (by decide)]
    simp only [readChars_flatMap, Option.map_some, String.ofList_toList]
  | array items =>
    rw [Json.depth] at hdepth
    obtain ⟨d, rfl⟩ : ∃ d, depth = d + 1 := ⟨depth - 1, by omega⟩
    cases items with
    | nil => rw [write]; rfl
    | cons w items =>
      obtain ⟨c, tail, htext, hblank, hc⟩ := write_head layout (level + 1) w
      rw [write] at hfuel ⊢
      simp only [List.length_cons, List.length_append] at hfuel
      have hitems := ih.items w items level d rest hunique (by omega) (by omega)
      simp only [List.cons_append, List.append_assoc, List.nil_append]
      rw [htext, List.cons_append] at hitems ⊢
      refine readValue_array ?_ hc hitems
      rw [skipBlanks_append (hlayout.newline _), skipBlanks_cons hblank]
  | object fields =>
    rw [Json.depth] at hdepth
    obtain ⟨d, rfl⟩ : ∃ d, depth = d + 1 := ⟨depth - 1, by omega⟩
    cases fields with
    | nil => rw [write]; rfl
    | cons field fields =>
      obtain ⟨k, w⟩ := field
      rw [write] at hfuel ⊢
      simp only [List.length_cons, List.length_append] at hfuel
      have hfields := ih.fields k w fields level d rest hunique.2 (by omega) (by omega)
      simp only [List.cons_append, List.append_assoc, List.nil_append]
      rw [readValue_object (hlayout.newline _) hfields, Named.ofEntries_eq_self hunique.1]

theorem ReadsBack.items_succ (hlayout : layout.Blank) (ih : ReadsBack layout fuel) (v : Json)
    (items : List Json) (level depth : ℕ) (rest : List Char) (hunique : UniqueItems (v :: items))
    (hdepth : depthItems (v :: items) ≤ depth)
    (hfuel : (write layout (level + 1) v).length + (writeItems layout level items).length <
      fuel + 1) :
    readItems (fuel + 1) depth (write layout (level + 1) v ++
      (writeItems layout level items ++ (layout.newline level ++ ']' :: rest))) =
      some (v :: items, rest) := by
  rw [depthItems] at hdepth
  have hv := ih.value v (level + 1) depth _ hunique.1 (by omega) (by omega)
    (numberEnd_items hlayout level items rest)
  cases items with
  | nil =>
    refine readItems_last hv ?_
    rw [writeItems, List.nil_append, skipBlanks_append (hlayout.newline level),
      skipBlanks_cons (by decide)]
  | cons w items =>
    rw [writeItems, List.length_cons, List.length_append, List.length_append] at hfuel
    have hmore := ih.items w items level depth rest hunique.2 (by omega) (by omega)
    rw [← readItems_blanks (hlayout.newline (level + 1))] at hmore
    refine readItems_comma hv ?_ hmore
    rw [writeItems, List.cons_append, skipBlanks_cons (by decide), List.append_assoc,
      List.append_assoc]

theorem ReadsBack.fields_succ (hlayout : layout.Blank) (ih : ReadsBack layout fuel) (k : String)
    (v : Json) (fields : List (String × Json)) (level depth : ℕ) (rest : List Char)
    (hunique : UniqueFields ((k, v) :: fields)) (hdepth : depthFields ((k, v) :: fields) ≤ depth)
    (hfuel : (write layout (level + 1) v).length + (writeFields layout level fields).length <
      fuel + 1) :
    readFields (fuel + 1) depth (writeString k ++ ':' :: (layout.afterColon ++
      (write layout (level + 1) v ++
        (writeFields layout level fields ++ (layout.newline level ++ '}' :: rest))))) =
      some ((k, v) :: fields, rest) := by
  rw [depthFields] at hdepth
  have hv := ih.value v (level + 1) depth _ hunique.1 (by omega) (by omega)
    (numberEnd_fields hlayout level fields rest)
  rw [← readValue_blanks hlayout.afterColon] at hv
  cases fields with
  | nil =>
    refine readFields_last hv ?_
    rw [writeFields, List.nil_append, skipBlanks_append (hlayout.newline level),
      skipBlanks_cons (by decide)]
  | cons field fields =>
    obtain ⟨j, w⟩ := field
    rw [writeFields] at hfuel
    simp only [List.length_cons, List.length_append] at hfuel
    have hmore := ih.fields j w fields level depth rest hunique.2 (by omega) (by omega)
    rw [← readFields_blanks (hlayout.newline (level + 1))] at hmore
    refine readFields_comma hv ?_ hmore
    rw [writeFields]
    simp only [List.cons_append, List.append_assoc]
    rw [skipBlanks_cons (by decide)]

theorem readsBack (hlayout : layout.Blank) (fuel : ℕ) : ReadsBack layout fuel := by
  induction fuel with
  | zero =>
    refine ⟨fun v level depth rest _ _ hfuel _ => ?_, fun _ _ _ _ _ _ _ hfuel => ?_,
      fun _ _ _ _ _ _ _ _ hfuel => ?_⟩
    · obtain ⟨c, tail, htext, -⟩ := write_head layout level v
      rw [htext, List.length_cons] at hfuel
      omega
    · omega
    · omega
  | succ fuel ih => exact ⟨ih.value_succ hlayout, ih.items_succ hlayout, ih.fields_succ hlayout⟩

end

/-- The text of a value is read back as the value. -/
theorem readWithin?_write {layout : Layout} (hlayout : layout.Blank) {v : Json} {depth : ℕ}
    (hunique : UniqueNames v) (hdepth : v.depth ≤ depth) (level : ℕ) :
    readWithin? depth (write layout level v) = some v := by
  have hread := (readsBack hlayout (2 * (write layout level v).length + 2)).value v level depth []
    hunique hdepth (by omega) (by simp [NumberEnd])
  rw [List.append_nil] at hread
  rw [readWithin?, hread]
  rfl

theorem read?_pretty {v : Json} (hunique : UniqueNames v) (hdepth : v.depth ≤ depthLimit) :
    read? v.pretty = some v := by
  rw [read?, pretty, String.toList_ofList]
  exact readWithin?_write Layout.pretty_blank hunique hdepth 0

end RecordShelf.Json
