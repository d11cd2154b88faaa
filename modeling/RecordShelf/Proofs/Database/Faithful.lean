import RecordShelf.Proofs.Cache.Keys
import RecordShelf.Proofs.Database.RightCaches

/-!
# Databases with right caches

A cached role or nickname is right when it is what would be loaded from the shelf, a cached record of
a role when it is the one that is stored. In a database whose caches hold only right entries, a
lookup gives what the shelf gives, whether it finds something in a cache or not, and leaves such a
database. A write that changes one record keeps the caches right if it drops what was made from that
record.
-/

namespace RecordShelf
open DatabaseM

namespace Shelf
variable {s s' : Shelf} {place : Option (String × String)}

/-- The role of a user that the shelf gives, zero if there is none or it cannot be read. -/
def roleAt (s : Shelf) (conference user : Int64) : Int64 :=
  match s.get (rolesTable conference) (idText user) with
  | .ok r => roleOf r
  | .error _ => 0

/-- What is cached as the nickname of a user. -/
def nicknameAt (s : Shelf) (peer user : Int64) : Except Error Json :=
  (s.get (nicknamesTable peer) (idText user)).map fun r => (r.bind (·.get? "nickname")).getD .null

/-- The value is the one that is loaded under this name. -/
def Loads (s : Shelf) : Namespace → String → Json → Prop
  | .userRoles, key, v => ∀ conference user, key = (Invalidation.role conference user).key →
      v = .ofInt64 (s.roleAt conference user)
  | .userNicknames, key, v => ∀ peer user, key = (Invalidation.nickname peer user).key →
      s.nicknameAt peer user = .ok v
  | _, _, _ => True

/-- The value is the record that is stored for the role of this name. -/
def LoadsRecord (s : Shelf) (name : String) (v : Json) : Prop :=
  ∀ conference user, (Invalidation.role conference user).recordName? = some name →
    ∃ r, s.get (rolesTable conference) (idText user) = .ok (some r) ∧ v = .object r

end Shelf

/-! ## Places and names -/

theorem idText_injective {a b : Int64} (h : idText a = idText b) : a = b :=
  Int64.toInt_inj.1 (CacheKey.ofInt_injective h)

theorem fits_idText (n : Int64) : Node.fits (fileName (idText n)) = true := by
  have hlength : (decimalInt n.toInt).length ≤ 21 := by
    have := length_digits_le n
    unfold decimalInt
    split_ifs
    · rw [List.length_cons]
      omega
    · omega
  have hsize := utf8ByteSize_ofList_le (decimalInt n.toInt)
  have hjson : recordSuffix.utf8ByteSize = 5 := by decide
  have hmax : Node.maxName = 255 := rfl
  rw [Node.fits, decide_eq_true_eq, fileName, String.utf8ByteSize_append, idText, hjson]
  omega

theorem rolesTable_injective {a b : Int64} (h : rolesTable a = rolesTable b) : a = b :=
  idText_injective ((String.append_right_inj _).1 h)

theorem nicknamesTable_injective {a b : Int64} (h : nicknamesTable a = nicknamesTable b) : a = b :=
  idText_injective ((String.append_right_inj _).1 h)

theorem rolesTable_ne_nicknamesTable (conference peer : Int64) :
    rolesTable conference ≠ nicknamesTable peer := by
  intro h
  have hfirst := congrArg (fun t : String => t.toList.head?) h
  simp [rolesTable, nicknamesTable] at hfirst

namespace Invalidation

theorem role_injective {c u conference user : Int64}
    (h : (role c u).key = (role conference user).key) : c = conference ∧ u = user :=
  CacheKey.ofPair_toInt_inj.1 h

theorem nickname_injective {p u peer user : Int64}
    (h : (nickname p u).key = (nickname peer user).key) : p = peer ∧ u = user :=
  CacheKey.ofPair_toInt_inj.1 h

theorem recordName_injective {c u conference user : Int64}
    (h : (role c u).recordName? = (role conference user).recordName?) : c = conference ∧ u = user :=
  role_injective (congrArg key (eq_of_recordName rfl h.symm))

/-- The cached value is made from the record at a place. -/
def Concerns (i : Invalidation) (place : String × String) : Prop :=
  (∃ conference user, place = (rolesTable conference, idText user) ∧ i = role conference user) ∨
    ∃ peer user, place = (nicknamesTable peer, idText user) ∧ i = nickname peer user

theorem eq_of_concerns_role {i : Invalidation} {conference user : Int64}
    (h : i.Concerns (rolesTable conference, idText user)) : i = role conference user := by
  rcases h with ⟨c, u, hplace, rfl⟩ | ⟨p, u, hplace, -⟩
  · obtain ⟨htable, hkey⟩ := Prod.mk.inj hplace
    rw [rolesTable_injective htable, idText_injective hkey]
  · exact absurd (Prod.mk.inj hplace).1 (rolesTable_ne_nicknamesTable _ _)

theorem eq_of_concerns_nickname {i : Invalidation} {peer user : Int64}
    (h : i.Concerns (nicknamesTable peer, idText user)) : i = nickname peer user := by
  rcases h with ⟨c, u, hplace, -⟩ | ⟨p, u, hplace, rfl⟩
  · exact absurd (Prod.mk.inj hplace).1.symm (rolesTable_ne_nicknamesTable _ _)
  · obtain ⟨htable, hkey⟩ := Prod.mk.inj hplace
    rw [nicknamesTable_injective htable, idText_injective hkey]

end Invalidation

namespace Shelf
variable {s s' : Shelf} {place : Option (String × String)} {v : Json}

theorem loads_role {conference user : Int64} :
    s.Loads .userRoles (Invalidation.role conference user).key v ↔
      v = .ofInt64 (s.roleAt conference user) := by
  constructor
  · intro h
    exact h conference user rfl
  · intro h c u hkey
    obtain ⟨rfl, rfl⟩ := Invalidation.role_injective hkey
    exact h

theorem loads_nickname {peer user : Int64} :
    s.Loads .userNicknames (Invalidation.nickname peer user).key v ↔
      s.nicknameAt peer user = .ok v := by
  constructor
  · intro h
    exact h peer user rfl
  · intro h p u hkey
    obtain ⟨rfl, rfl⟩ := Invalidation.nickname_injective hkey
    exact h

/-- A value that is made from no changed record stays right. -/
theorem Loads.of_agreesOff (hs : s.AgreesOff s' place) {ns : Namespace} {key : String}
    (hfree : ∀ at' ∈ place, ¬Invalidation.Concerns ⟨ns, key⟩ at') (h : s.Loads ns key v) :
    s'.Loads ns key v := by
  cases ns with
  | userRoles =>
    intro conference user hkey
    have hplace : place ≠ some (rolesTable conference, idText user) := fun hplace =>
      hfree _ hplace (Or.inl ⟨conference, user, rfl, by rw [hkey]; rfl⟩)
    rw [h conference user hkey]
    unfold roleAt
    rw [hs _ _ (fits_idText user) hplace]
  | userNicknames =>
    intro peer user hkey
    have hplace : place ≠ some (nicknamesTable peer, idText user) := fun hplace =>
      hfree _ hplace (Or.inr ⟨peer, user, rfl, by rw [hkey]; rfl⟩)
    rw [nicknameAt, hs _ _ (fits_idText user) hplace]
    exact h peer user hkey
  | _ => trivial

theorem LoadsRecord.of_agreesOff (hs : s.AgreesOff s' place) {name : String}
    (hfree : ∀ at' ∈ place, ∀ i, Invalidation.Concerns i at' → i.recordName? ≠ some name)
    (h : s.LoadsRecord name v) : s'.LoadsRecord name v := by
  intro conference user hname
  have hplace : place ≠ some (rolesTable conference, idText user) := fun hplace =>
    hfree _ hplace _ (Or.inl ⟨conference, user, rfl, rfl⟩) hname
  rw [hs _ _ (fits_idText user) hplace]
  exact h conference user hname

end Shelf

/-! ## Databases -/

/-- The entries that are right for roles and nicknames. -/
abbrev memberEntries : Cachable := ⟨Shelf.Loads, Shelf.LoadsRecord⟩

/-- A change of one record leaves right what is not made from that record. -/
theorem staysOff_members {s s' : Shelf} {place : Option (String × String)}
    (hs : s.AgreesOff s' place) {i : Option Invalidation}
    (hi : ∀ at' ∈ place, ∀ j, Invalidation.Concerns j at' → some j = i) :
    memberEntries.StaysOff s s' i := by
  constructor
  · intro ns key v hne
    exact Shelf.Loads.of_agreesOff hs fun at' hat hconcerns => hne (hi at' hat _ hconcerns)
  · intro name v hname
    exact Shelf.LoadsRecord.of_agreesOff hs fun at' hat j hconcerns =>
      hname j (hi at' hat j hconcerns).symm

/-- Under the default settings, with only right entries in the caches. -/
abbrev Database.Faithful (db : Database) : Prop := db.Right memberEntries

end RecordShelf
