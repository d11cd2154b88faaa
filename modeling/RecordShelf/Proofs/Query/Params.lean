import RecordShelf.Proofs.Shelf.RecordFile
import RecordShelf.Query.Execute

/-!
# Records from params

Params that come from a JSON text have no name twice in an object. Then none of the records that a
statement makes of them has, and neither has a record with some of their values written over it.
-/

namespace RecordShelf.Query
open Sql

namespace Params
variable {params : Params}

/-- No object in the params has a name twice. -/
def Proper : Params → Prop
  | .positional values => ∀ v ∈ values, v.UniqueNames
  | .named fields => (Json.object fields).UniqueNames

theorem proper_ofJson {v : Json} (h : v.UniqueNames) : (ofJson v).Proper := by
  cases v with
  | array values => exact Json.uniqueItems_iff.1 h
  | object fields => exact h
  | null => exact fun _ hv => absurd hv List.not_mem_nil
  | bool | number | string => exact List.forall_mem_singleton.2 h

theorem Proper.record {r : Record} (h : params.Proper) (hr : params.record? = some r) :
    (Json.object r).UniqueNames := by
  unfold record? at hr
  split at hr
  · obtain rfl := Option.some.inj hr
    exact h _ List.mem_cons_self
  · exact absurd hr (Option.some_ne_none r).symm

theorem unique_of_get? {fields : Record} {name : String} {v : Json}
    (h : (Json.object fields).UniqueNames) (hv : fields.get? name = some v) : v.UniqueNames :=
  Json.uniqueFields_iff.1 h.2 _ (Named.mem_of_get? hv)

theorem unique_ofEntries {entries : List (String × Json)}
    (h : ∀ field ∈ entries, field.2.UniqueNames) :
    (Json.object (Named.ofEntries entries)).UniqueNames :=
  Json.uniqueNames_extend ⟨List.nodup_nil, trivial⟩ h

theorem unique_zipColumns (h : params.Proper) (columns : List String) :
    (Json.object (params.zipColumns columns)).UniqueNames := by
  cases params with
  | positional values =>
    exact unique_ofEntries fun field hfield => h _ (List.of_mem_zip hfield).2
  | named fields =>
    refine unique_ofEntries fun field hfield => ?_
    obtain ⟨column, -, hcolumn⟩ := List.mem_filterMap.1 hfield
    obtain ⟨v, hv, rfl⟩ := Option.map_eq_some_iff.1 hcolumn
    exact unique_of_get? h hv

end Params

theorem unique_literalValue (l : Literal) : (literalValue l).UniqueNames := by
  cases l with
  | float x =>
    rw [literalValue]
    cases x.finite? <;> trivial
  | null | bool | int | string => trivial

namespace Binder
variable {b : Binder} {v : Json}

theorem params_bind (b : Binder) (o : Operand) : (b.bind o).2.params = b.params := by
  obtain ⟨params, cursor⟩ := b
  cases o with
  | literal l => rfl
  | placeholder p => cases params <;> cases p <;> rfl

theorem unique_bind (hb : b.params.Proper) {o : Operand} (h : (b.bind o).1 = some v) :
    v.UniqueNames := by
  obtain ⟨params, cursor⟩ := b
  cases o with
  | literal l =>
    obtain rfl := Option.some.inj h
    exact unique_literalValue l
  | placeholder p =>
    cases params with
    | positional values =>
      have htaken : values[cursor]? = some v := by
        cases p <;> exact h
      exact hb v (List.mem_of_getElem? htaken)
    | named fields =>
      cases p with
      | positional => exact absurd h (Option.some_ne_none v).symm
      | named name => exact Params.unique_of_get? hb h

theorem unique_bindFields (hb : b.params.Proper) (items : List (String × Operand)) :
    ∀ field ∈ b.bindFields items, field.2.UniqueNames := by
  induction items generalizing b with
  | nil => exact fun _ h => absurd h List.not_mem_nil
  | cons item items ih =>
    obtain ⟨column, o⟩ := item
    have hrest := ih (b := (b.bind o).2) (by rw [params_bind]; exact hb)
    rw [bindFields]
    cases hvalue : (b.bind o).1 with
    | none => simpa only [hvalue] using hrest
    | some v =>
      simp only [hvalue]
      exact List.forall_mem_cons.2 ⟨unique_bind hb hvalue, hrest⟩

end Binder

section
variable {params : Params}

theorem unique_insertRecord {i : Insert} {r : Record} (hparams : params.Proper)
    (h : insertRecord i params = .ok r) : (Json.object r).UniqueNames := by
  unfold insertRecord at h
  split at h
  · obtain rfl := Except.ok.inj h
    exact Params.unique_ofEntries (Binder.unique_bindFields hparams _)
  · rename_i hrecord
    obtain rfl := Except.ok.inj h
    exact hparams.record hrecord
  · obtain rfl := Except.ok.inj h
    exact hparams
  · exact absurd h (by simp)
  · obtain rfl := Except.ok.inj h
    exact Params.unique_ofEntries (Binder.unique_bindFields hparams _)
  · obtain rfl := Except.ok.inj h
    exact Params.unique_zipColumns hparams _

theorem unique_mergeRecord {onDuplicate : Bool} {existing : Option Record} {r : Record}
    (hexisting : ∀ old ∈ existing, (Json.object old).UniqueNames) (hr : (Json.object r).UniqueNames) :
    (Json.object (mergeRecord onDuplicate existing r)).UniqueNames := by
  unfold mergeRecord
  split
  · exact Json.uniqueNames_extend (hexisting _ rfl) (Json.uniqueFields_iff.1 hr.2)
  · exact hr

end

end RecordShelf.Query
