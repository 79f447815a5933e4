import Mathlib.Data.List.Nodup
import SourceLens.Data.Value

/-!
# Merged mappings

What a key stands for in merged mappings depends on what it stands for in each of them and on nothing
else (`get?_merge`), as long as no key stands twice in the stronger one. Entries apart from one key
merge on their own (`without_merge`). A mapping in which no key stands twice stays one when entries
are set or merged into it.
-/

namespace SourceLens

theorem Scalar.identity_eq_text {key : Scalar} {name : String} :
    key.identity = .text name ↔ key = .text name := by
  cases key with
  | null | bool | int | text | other => simp [identity]
  | float x =>
    simp only [identity, reduceCtorEq, iff_false]
    cases x.toInt? <;> simp
  | moment m =>
    simp only [reduceCtorEq, iff_false]
    cases m with
    | date day => simp [identity]
    | time day clock zone => cases zone <;> simp [identity]

namespace Entries

/-! ## Setting a key -/

theorem get?_put (key k : Scalar) (value : Value) (entries : Entries) :
    (entries.put key value).get? k =
      if k.identity = key.identity then some value else entries.get? k := by
  induction entries with
  | nil => by_cases h : k.identity = key.identity <;> simp [put, get?, h, Ne.symm]
  | cons entry rest ih =>
    obtain ⟨old, v⟩ := entry
    by_cases ho : old.identity = key.identity
    · by_cases h : k.identity = key.identity
      · simp [put, get?, ho, h]
      · simp [put, get?, ho, h, Ne.symm h]
    · by_cases h : k.identity = old.identity
      · simp [put, get?, ho, h]
      · simp [put, get?, ho, Ne.symm h, ih]

theorem keys_put (key : Scalar) (value : Value) (entries : Entries) :
    (entries.put key value).map (·.1) =
      if key.identity ∈ entries.map (·.1.identity) then entries.map (·.1)
      else entries.map (·.1) ++ [key] := by
  induction entries with
  | nil => simp [put]
  | cons entry rest ih =>
    obtain ⟨old, v⟩ := entry
    by_cases ho : old.identity = key.identity
    · simp [put, ho]
    · rw [put, if_neg ho, List.map_cons, ih]
      by_cases h : key.identity ∈ rest.map (·.1.identity)
      · simp only [h, if_true, List.map_cons, List.mem_cons, or_true]
      · simp only [h, if_false, List.map_cons, List.mem_cons, Ne.symm ho, or_self,
          List.cons_append]

/-! ## Keys that stand once -/

def Distinct (entries : Entries) : Prop := (entries.map (·.1.identity)).Nodup

theorem distinct_nil : Distinct [] := List.nodup_nil

theorem identities_put (key : Scalar) (value : Value) (entries : Entries) :
    (entries.put key value).map (·.1.identity)
      = if key.identity ∈ entries.map (·.1.identity) then entries.map (·.1.identity)
        else entries.map (·.1.identity) ++ [key.identity] := by
  have hkeys := congrArg (List.map Scalar.identity) (keys_put key value entries)
  rw [List.map_map] at hkeys
  refine hkeys.trans ?_
  split_ifs <;> simp

theorem Distinct.put {entries : Entries} (h : entries.Distinct) (key : Scalar) (value : Value) :
    (entries.put key value).Distinct := by
  rw [Distinct, identities_put]
  split_ifs with hmem
  · exact h
  · exact h.append (List.nodup_singleton _) (by simpa using hmem)

theorem Distinct.foldl_put {entries : Entries} (h : entries.Distinct)
    (pairs : List (Scalar × Value)) :
    Distinct (pairs.foldl (fun entries (k, v) => Entries.put k v entries) entries) := by
  induction pairs generalizing entries with
  | nil => exact h
  | cons pair pairs ih => exact ih (h.put pair.1 pair.2)

theorem distinct_ofList (pairs : List (Scalar × Value)) : (ofList pairs).Distinct :=
  distinct_nil.foldl_put pairs

theorem Distinct.mergeOne {base : Entries} (h : base.Distinct) (entry : Scalar × Value) :
    (base.mergeOne entry).Distinct := by
  rw [Entries.mergeOne]
  split
  · exact h.put ..
  · exact h.put ..

theorem Distinct.merge {base : Entries} (h : base.Distinct) (upper : Entries) :
    (base.merge upper).Distinct := by
  induction upper generalizing base with
  | nil => rwa [Entries.merge]
  | cons entry upper ih =>
    rw [Entries.merge]
    exact ih (h.mergeOne entry)

theorem mem_identities_put {key : Scalar} {value : Value} {entries : Entries} {id : Identity} :
    id ∈ (entries.put key value).map (·.1.identity)
      ↔ id ∈ entries.map (·.1.identity) ∨ id = key.identity := by
  rw [identities_put]
  split_ifs with hmem
  · exact ⟨.inl, fun h => h.elim (fun h => h) fun h => h ▸ hmem⟩
  · rw [List.mem_append, List.mem_singleton]

theorem mem_identities_merge {base upper : Entries} {id : Identity} :
    id ∈ (base.merge upper).map (·.1.identity)
      ↔ id ∈ base.map (·.1.identity) ∨ id ∈ upper.map (·.1.identity) := by
  induction upper generalizing base with
  | nil => simp [Entries.merge]
  | cons entry upper ih =>
    have hone : id ∈ (base.mergeOne entry).map (·.1.identity)
        ↔ id ∈ base.map (·.1.identity) ∨ id = entry.1.identity := by
      rw [Entries.mergeOne]
      split
      · exact mem_identities_put
      · exact mem_identities_put
    rw [Entries.merge, ih, hone, List.map_cons, List.mem_cons, or_assoc]

/-! ## What a key stands for -/

theorem get?_congr {k key : Scalar} (h : k.identity = key.identity) (entries : Entries) :
    entries.get? k = entries.get? key := by
  induction entries with
  | nil => rfl
  | cons entry rest ih => rw [get?, get?, h, ih]

theorem get?_eq_none {key : Scalar} {entries : Entries} :
    entries.get? key = none ↔ key.identity ∉ entries.map (·.1.identity) := by
  induction entries with
  | nil => simp [get?]
  | cons entry rest ih =>
    rw [get?]
    split_ifs with h
    · simp [h]
    · simp [ih, Ne.symm h]

theorem mem_of_get? {key : Scalar} {value : Value} {entries : Entries}
    (h : entries.get? key = some value) : ∃ k, k.identity = key.identity ∧ (k, value) ∈ entries := by
  induction entries with
  | nil => simp [get?] at h
  | cons entry rest ih =>
    rw [get?] at h
    split_ifs at h with hkey
    · obtain rfl := Option.some.inj h
      exact ⟨entry.1, hkey, List.mem_cons_self⟩
    · obtain ⟨k, hk, hmem⟩ := ih h
      exact ⟨k, hk, List.mem_cons_of_mem _ hmem⟩

/-- What a value makes of another one, if there are such values. -/
def overlay : Option Value → Option Value → Option Value
  | base, none => base
  | none, some upper => some upper
  | some base, some upper => some (Value.merge base upper)

@[simp] theorem overlay_none (base : Option Value) : overlay base none = base := by
  cases base <;> rfl

theorem get?_mergeOne (base : Entries) (key : Scalar) (value : Value) (k : Scalar) :
    (base.mergeOne (key, value)).get? k
      = if k.identity = key.identity then overlay (base.get? key) (some value)
        else base.get? k := by
  rw [mergeOne]
  cases h : base.get? key with
  | none => exact get?_put ..
  | some old => exact get?_put ..

theorem get?_merge {upper : Entries} (h : upper.Distinct) (base : Entries) (k : Scalar) :
    (base.merge upper).get? k = overlay (base.get? k) (upper.get? k) := by
  induction upper generalizing base with
  | nil => rw [merge, get?, overlay_none]
  | cons entry upper ih =>
    obtain ⟨key, value⟩ := entry
    obtain ⟨hkey, hupper⟩ := List.nodup_cons.1 h
    rw [merge, ih hupper, get?_mergeOne, get?]
    by_cases hk : k.identity = key.identity
    · rw [if_pos hk, if_pos hk.symm, get?_congr hk upper, get?_eq_none.2 hkey, overlay_none,
        get?_congr hk base]
    · rw [if_neg hk, if_neg (Ne.symm hk)]

/-! ## Entries apart from one key -/

def without (name : String) (entries : Entries) : Entries :=
  entries.filter fun (key, _) => key ≠ .text name

theorem without_cons (name : String) (key : Scalar) (value : Value) (rest : Entries) :
    without name ((key, value) :: rest)
      = if key = .text name then without name rest else (key, value) :: without name rest := by
  by_cases h : key = .text name <;> simp [without, h]

theorem without_put_self (name : String) {key : Scalar} (hkey : key = .text name) (value : Value)
    (entries : Entries) : (entries.put key value).without name = entries.without name := by
  subst hkey
  induction entries with
  | nil => simp [put, without]
  | cons entry rest ih =>
    obtain ⟨old, v⟩ := entry
    rw [put]
    split_ifs with h
    · rw [without_cons, without_cons]
      have hold : old = .text name := Scalar.identity_eq_text.1 h
      rw [if_pos hold, if_pos hold]
    · rw [without_cons, without_cons, ih]

theorem without_put_other {name : String} {key : Scalar} (hkey : key ≠ .text name) (value : Value)
    (entries : Entries) :
    (entries.put key value).without name = (entries.without name).put key value := by
  induction entries with
  | nil => simp [put, without, hkey]
  | cons entry rest ih =>
    obtain ⟨old, v⟩ := entry
    rw [put, without_cons]
    split_ifs with hsame hold
    · exact absurd (Scalar.identity_eq_text.1 (hsame.symm.trans (by rw [hold]; rfl))) hkey
    · rw [without_cons, if_neg hold, put, if_pos hsame]
    · rename_i hold
      rw [without_cons, if_pos hold, ih]
    · rename_i hold
      rw [without_cons, if_neg hold, put, if_neg hsame, ih]

theorem get?_without {name : String} {key : Scalar} (hkey : key ≠ .text name) (entries : Entries) :
    (entries.without name).get? key = entries.get? key := by
  induction entries with
  | nil => rfl
  | cons entry rest ih =>
    obtain ⟨old, v⟩ := entry
    rw [without_cons, get?]
    split_ifs with hold hsame
    · exact absurd (Scalar.identity_eq_text.1 (hsame.symm.trans (by rw [hold]; rfl))) hkey
    · exact ih
    · rename_i hsame
      rw [get?, if_pos hsame]
    · rename_i hsame
      rw [get?, if_neg hsame, ih]

theorem without_mergeOne (name : String) (base : Entries) (key : Scalar) (value : Value) :
    (base.mergeOne (key, value)).without name
      = if key = .text name then base.without name
        else (base.without name).mergeOne (key, value) := by
  split_ifs with hkey
  · rw [mergeOne]
    split
    · exact without_put_self name hkey ..
    · exact without_put_self name hkey ..
  · rw [mergeOne, mergeOne, get?_without hkey]
    cases base.get? key with
    | none => exact without_put_other hkey ..
    | some old => exact without_put_other hkey ..

theorem without_merge (name : String) (base upper : Entries) :
    (base.merge upper).without name = (base.without name).merge (upper.without name) := by
  induction upper generalizing base with
  | nil =>
    show (base.merge []).without name = (base.without name).merge []
    rw [merge, merge]
  | cons entry upper ih =>
    obtain ⟨key, value⟩ := entry
    rw [merge, ih, without_mergeOne, without_cons]
    split_ifs
    · rfl
    · rw [merge]

end Entries

end SourceLens
