import RecordShelf.Proofs.Sql.Occurrences

/-!
# Texts in bytes

What a scan looks for is ASCII: quotes, parentheses, blanks, separators and the letters of keywords.
No byte of any other character is. So a scan of the bytes of a text in UTF-8 gives the bytes of each
character the mark of the character.
-/

namespace RecordShelf.Sql
open Text

/-! ## Bytes -/

/-- The bytes of a character, each as the character that has its number. -/
def byteChars (c : Char) : List Char := (String.utf8EncodeChar c).map fun b => Char.ofNat b.toNat

/-- The bytes of a text in UTF-8, each as the character that has its number. -/
def bytes (cs : List Char) : List Char :=
  (String.ofList cs).toUTF8.data.toList.map fun b => Char.ofNat b.toNat

/-- A byte or a character that is not ASCII. -/
def Wide (c : Char) : Prop := 128 ≤ c.toNat

instance (c : Char) : Decidable (Wide c) := inferInstanceAs (Decidable (128 ≤ c.toNat))

theorem bytes_eq_flatMap (cs : List Char) : bytes cs = cs.flatMap byteChars := by
  rw [bytes, String.toUTF8_eq_toByteArray, String.toByteArray_ofList, List.utf8Encode,
    List.data_toByteArray, List.toList_toArray, List.map_flatMap]
  rfl

@[simp] theorem bytes_nil : bytes [] = [] := by rw [bytes_eq_flatMap]; rfl

theorem bytes_cons (c : Char) (cs : List Char) : bytes (c :: cs) = byteChars c ++ bytes cs := by
  rw [bytes_eq_flatMap, bytes_eq_flatMap, List.flatMap_cons]

theorem bytes_append (cs ds : List Char) : bytes (cs ++ ds) = bytes cs ++ bytes ds := by
  rw [bytes_eq_flatMap, bytes_eq_flatMap, bytes_eq_flatMap, List.flatMap_append]

theorem length_bytes (cs : List Char) : (bytes cs).length = (String.ofList cs).utf8ByteSize := by
  rw [bytes, List.length_map, Array.length_toList, String.toUTF8_eq_toByteArray, ByteArray.size_data,
    String.size_toByteArray]

theorem toNat_byteChar (b : UInt8) : (Char.ofNat b.toNat).toNat = b.toNat := by
  have hvalid : b.toNat.isValidChar := Or.inl (Nat.lt_trans b.toNat_lt (by decide))
  rw [Char.ofNat, dif_pos hvalid]
  rfl

theorem byteChars_of_not_wide {c : Char} (hc : ¬Wide c) : byteChars c = [c] := by
  have hval : c.val.toNat ≤ 127 := Nat.le_of_lt_succ (Nat.lt_of_not_le hc)
  have hsame : (UInt8.ofNat c.val.toNat).toNat = c.toNat := by
    rw [UInt8.toNat_ofNat', Nat.mod_eq_of_lt (by omega)]
    rfl
  rw [byteChars, String.utf8EncodeChar]
  simp only [hval, if_true, List.map_cons, List.map_nil, hsame, Char.ofNat_toNat]

theorem wide_of_mem_byteChars {c : Char} (hc : Wide c) : ∀ d ∈ byteChars c, Wide d := by
  have hwide : ∀ n, 128 ≤ n → n < 256 → Wide (Char.ofNat (UInt8.ofNat n).toNat) := by
    intro n hlow hhigh
    rw [Wide, toNat_byteChar, UInt8.toNat_ofNat', Nat.mod_eq_of_lt hhigh]
    exact hlow
  have hval : ¬c.val.toNat ≤ 127 := Nat.not_le_of_lt hc
  intro d hd
  rw [byteChars, String.utf8EncodeChar] at hd
  simp only [hval, if_false] at hd
  split_ifs at hd <;> simp only [List.map_cons, List.map_nil, List.mem_cons, List.not_mem_nil,
    or_false] at hd
  · rcases hd with rfl | rfl <;> exact hwide _ (by omega) (by omega)
  · rcases hd with rfl | rfl | rfl <;> exact hwide _ (by omega) (by omega)
  · rcases hd with rfl | rfl | rfl | rfl <;> exact hwide _ (by omega) (by omega)

theorem byteChars_ne_nil (c : Char) : byteChars c ≠ [] := by
  rw [byteChars, Ne, List.map_eq_nil_iff]
  exact String.utf8EncodeChar_ne_nil

/-! ## Bytes beyond ASCII -/

section
variable {c w : Char}

theorem Wide.ne (hc : Wide c) {d : Char} (hd : d.toNat < 128) : c ≠ d := by
  rintro rfl
  exact Nat.not_lt.2 hc hd

theorem Wide.isAsciiWord (hc : Wide c) : isAsciiWord c = false := by
  by_contra hword
  simp only [Text.isAsciiWord, Bool.not_eq_false, Bool.or_eq_true, beq_iff_eq] at hword
  rcases hword with hword | rfl
  · exact Nat.not_lt.2 hc (toNat_lt_of_isAlphanum hword)
  · exact absurd hc (by decide)

theorem Wide.isAsciiBlank (hc : Wide c) : isAsciiBlank c = false := by
  by_contra hblank
  simp only [Text.isAsciiBlank, Bool.not_eq_false, Bool.or_eq_true, beq_iff_eq] at hblank
  rcases hblank with (((rfl | rfl) | rfl) | rfl) | rfl <;> exact absurd hc (by decide)

theorem Wide.toLower_ne (hc : Wide c) (hw : w.isAlpha = true) : c.toLower ≠ w :=
  Sql.toLower_ne hw hc.isAsciiWord

end

namespace ScanState
variable {st : ScanState}

/-- What a character does that means nothing to a scan: at most it uses up a backslash. -/
def pass (st : ScanState) : Mark × ScanState :=
  match st.quote with
  | some _ => (.quoted, { st with escaped := false })
  | none => (.code st.depth, st)

theorem pass_pass (st : ScanState) : st.pass.2.pass = st.pass := by
  obtain ⟨quote, escaped, depth⟩ := st
  cases quote <;> rfl

theorem step_of_wide {d : Char} (hd : Wide d) (hst : st.Known) : st.step d = st.pass := by
  obtain ⟨quote, escaped, depth⟩ := st
  cases quote with
  | none =>
    simp [step, pass, hd.ne (d := '\'') (by decide), hd.ne (d := '"') (by decide),
      hd.ne (d := '`') (by decide), hd.ne (d := '(') (by decide), hd.ne (d := ')') (by decide)]
  | some q =>
    have hq : q.toNat < 128 := by rcases hst q rfl with rfl | rfl | rfl <;> decide
    simp only [step, pass, hd.ne hq, hd.ne (d := '\\') (by decide), false_and, if_false]
    cases escaped <;> rfl

end ScanState

/-! ## Marks of bytes -/

/-- Marked characters as their marked bytes. -/
def inBytes (ms : List Marked) : List Marked := ms.flatMap fun m => (byteChars m.1).map (·, m.2)

section
variable {st : ScanState} {m : Marked} {ms : List Marked}

@[simp] theorem inBytes_nil : inBytes [] = [] := rfl

theorem inBytes_cons (m : Marked) (ms : List Marked) :
    inBytes (m :: ms) = (byteChars m.1).map (·, m.2) ++ inBytes ms := List.flatMap_cons ..

theorem inBytes_append (ms ns : List Marked) : inBytes (ms ++ ns) = inBytes ms ++ inBytes ns :=
  List.flatMap_append ..

theorem inBytes_cons_narrow (hm : ¬Wide m.1) : inBytes (m :: ms) = m :: inBytes ms := by
  rw [inBytes_cons, byteChars_of_not_wide hm]
  rfl

theorem inBytes_cons_wide (hm : Wide m.1) (ms : List Marked) : ∃ d ds, byteChars m.1 = d :: ds ∧
    (∀ e ∈ d :: ds, Wide e) ∧ inBytes (m :: ms) = (d :: ds).map (·, m.2) ++ inBytes ms := by
  obtain ⟨d, ds, hbytes⟩ := List.exists_cons_of_ne_nil (byteChars_ne_nil m.1)
  have hwide := wide_of_mem_byteChars hm
  rw [hbytes] at hwide
  exact ⟨d, ds, hbytes, hwide, by rw [inBytes_cons, hbytes]⟩

theorem inBytes_map (f : Mark) (cs : List Char) :
    inBytes (cs.map (·, f)) = (bytes cs).map (·, f) := by
  rw [inBytes, List.flatMap_map, bytes_eq_flatMap, List.map_flatMap]

theorem map_fst_inBytes (ms : List Marked) : (inBytes ms).map (·.1) = bytes (ms.map (·.1)) := by
  rw [inBytes, List.map_flatMap, bytes_eq_flatMap, List.flatMap_map]
  simp only [List.map_map, Function.comp_def, List.map_id']

theorem markFrom_wides {ds : List Char} (hne : ds ≠ []) (hds : ∀ d ∈ ds, Wide d) (hst : st.Known) :
    markFrom st ds = ds.map (·, st.pass.1) ∧ st.run ds = st.pass.2 := by
  induction ds generalizing st with
  | nil => exact absurd rfl hne
  | cons d ds ih =>
    obtain ⟨hd, hds⟩ := List.forall_mem_cons.1 hds
    have hstep := ScanState.step_of_wide hd hst
    rw [markFrom, ScanState.run_cons, hstep]
    cases ds with
    | nil => exact ⟨rfl, rfl⟩
    | cons e ds =>
      obtain ⟨hmarks, hrun⟩ := ih (List.cons_ne_nil e ds) hds (hstep ▸ hst.step d)
      rw [hmarks, hrun, ScanState.pass_pass]
      exact ⟨rfl, rfl⟩

/-- The bytes of a character have its mark, and a scan goes on behind them as behind it. -/
theorem markFrom_byteChars (hst : st.Known) (c : Char) :
    markFrom st (byteChars c) = (byteChars c).map (·, (st.step c).1) ∧
      st.run (byteChars c) = (st.step c).2 := by
  by_cases hc : Wide c
  · rw [ScanState.step_of_wide hc hst]
    exact markFrom_wides (byteChars_ne_nil c) (wide_of_mem_byteChars hc) hst
  · rw [byteChars_of_not_wide hc]
    exact ⟨rfl, rfl⟩

theorem run_bytes (hst : st.Known) (cs : List Char) : st.run (bytes cs) = st.run cs := by
  induction cs generalizing st with
  | nil => rw [bytes_nil]
  | cons c cs ih =>
    rw [bytes_cons, ScanState.run_append, (markFrom_byteChars hst c).2, ih (hst.step c),
      ScanState.run_cons]

theorem markFrom_bytes (hst : st.Known) (cs : List Char) :
    markFrom st (bytes cs) = inBytes (markFrom st cs) := by
  induction cs generalizing st with
  | nil => rw [bytes_nil]; rfl
  | cons c cs ih =>
    obtain ⟨hmarks, hrun⟩ := markFrom_byteChars hst c
    rw [bytes_cons, markFrom_append, hmarks, hrun, ih (hst.step c), markFrom, inBytes_cons]

theorem mark_bytes (cs : List Char) : mark (bytes cs) = inBytes (mark cs) :=
  markFrom_bytes ScanState.known_start cs

end

/-! ## Places in bytes -/

/-- Where the bytes of a text start behind so many of its characters. -/
def byteOffset (cs : List Char) (n : ℕ) : ℕ := (bytes (cs.take n)).length

/-- A place between two characters of a text, given in bytes. -/
def Boundary (cs : List Char) (n : ℕ) : Prop := String.Pos.Raw.IsValid (String.ofList cs) ⟨n⟩

section
variable {cs : List Char} {i j : ℕ}

theorem boundary_byteOffset (cs : List Char) (n : ℕ) : Boundary cs (byteOffset cs n) := by
  rw [Boundary, String.Pos.Raw.isValid_iff_exists_append]
  refine ⟨String.ofList (cs.take n), String.ofList (cs.drop n), ?_, ?_⟩
  · rw [← String.ofList_append, List.take_append_drop]
  · rw [byteOffset, length_bytes]
    rfl

theorem length_inBytes_take (cs : List Char) (n : ℕ) :
    (inBytes ((mark cs).take n)).length = byteOffset cs n := by
  rw [← List.length_map (fun m : Marked => m.1), map_fst_inBytes, List.map_take, mark,
    markFrom_map_fst, byteOffset]

theorem byteOffset_add (cs : List Char) (i n : ℕ) :
    byteOffset cs (i + n) = byteOffset cs i + (bytes ((cs.drop i).take n)).length := by
  rw [byteOffset, List.take_add, bytes_append, List.length_append, byteOffset]

theorem byteOffset_length (cs : List Char) : byteOffset cs cs.length = (bytes cs).length := by
  rw [byteOffset, List.take_length]

theorem length_le_length_bytes (cs : List Char) : cs.length ≤ (bytes cs).length := by
  induction cs with
  | nil => exact Nat.zero_le _
  | cons c cs ih =>
    have hpos := List.length_pos_iff.2 (byteChars_ne_nil c)
    rw [bytes_cons, List.length_append, List.length_cons]
    omega

theorem byteOffset_lt (hij : i < j) (hj : j ≤ cs.length) : byteOffset cs i < byteOffset cs j := by
  have hgrow := length_le_length_bytes ((cs.drop i).take (j - i))
  rw [List.length_take, List.length_drop] at hgrow
  have hadd := byteOffset_add cs i (j - i)
  rw [Nat.add_sub_cancel' (Nat.le_of_lt hij)] at hadd
  omega

theorem byteOffset_le_iff (hi : i ≤ cs.length) (hj : j ≤ cs.length) :
    byteOffset cs i ≤ byteOffset cs j ↔ i ≤ j := by
  constructor
  · intro hle
    by_contra hlt
    exact Nat.not_lt.2 hle (byteOffset_lt (Nat.lt_of_not_le hlt) hi)
  · intro hle
    rcases Nat.eq_or_lt_of_le hle with rfl | hlt
    · exact Nat.le_refl _
    · exact Nat.le_of_lt (byteOffset_lt hlt hj)

end

end RecordShelf.Sql
