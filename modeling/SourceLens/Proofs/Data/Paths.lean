import SourceLens.Proofs.Data.Equality
import SourceLens.Proofs.Data.Merging

/-!
# Paths into merged mappings

A path of keys leads through nested mappings (`Value.at?`). What stands at its end in merged mappings is
read off what stands there in each of them (`at?_merge_of_some`, `at?_merge_of_none`): the second one
wins, two mappings are merged, and the first one shows through where nothing of the second is in the way.
All of this needs the keys of the second mapping to be distinct at every depth (`Keyed`); of the first
one nothing is asked. By induction on the second value, laying it over another one twice is laying it
over once.
-/

namespace SourceLens

/-! ## Setting and merging entries -/

namespace Entries

theorem put_of_get?_eq_none {key : Scalar} {entries : Entries} (h : entries.get? key = none)
    (value : Value) : entries.put key value = entries ++ [(key, value)] := by
  induction entries with
  | nil => rfl
  | cons entry rest ih =>
    rw [get?] at h
    split_ifs at h with hkey
    rw [put, if_neg hkey, ih h, List.cons_append]

theorem put_of_get? {key : Scalar} {value : Value} {entries : Entries}
    (h : entries.get? key = some value) : entries.put key value = entries := by
  induction entries with
  | nil => simp [get?] at h
  | cons entry rest ih =>
    rw [get?] at h
    rw [put]
    split_ifs at h ⊢ with hkey
    · rw [← Option.some.inj h]
    · rw [ih h]

theorem get?_of_mem {entries : Entries} (h : entries.Distinct) {entry : Scalar × Value}
    (hmem : entry ∈ entries) : entries.get? entry.1 = some entry.2 := by
  induction entries with
  | nil => simp at hmem
  | cons first rest ih =>
    obtain ⟨hfirst, hrest⟩ := List.nodup_cons.1 h
    rw [get?]
    rcases List.mem_cons.1 hmem with rfl | hmem
    · rw [if_pos rfl]
    · have hother : first.1.identity ≠ entry.1.identity := fun hsame =>
        hfirst (List.mem_map.2 ⟨entry, hmem, hsame.symm⟩)
      rw [if_neg hother, ih hrest hmem]

theorem merge_nil (base : Entries) : base.merge [] = base := by rw [merge]

theorem merge_eq_append {base upper : Entries} (h : Distinct (base ++ upper)) :
    base.merge upper = base ++ upper := by
  induction upper generalizing base with
  | nil => rw [merge_nil, List.append_nil]
  | cons entry upper ih =>
    obtain ⟨key, value⟩ := entry
    have hnew : base.get? key = none := by
      rw [get?_eq_none]
      intro hmem
      rw [Distinct, List.map_append] at h
      exact List.disjoint_of_nodup_append h hmem List.mem_cons_self
    have hmove : base ++ (key, value) :: upper = base ++ [(key, value)] ++ upper := by simp
    rw [merge, mergeOne, hnew]
    simp only
    rw [put_of_get?_eq_none hnew, hmove, ih (hmove ▸ h)]

theorem nil_merge {upper : Entries} (h : upper.Distinct) : merge [] upper = upper :=
  merge_eq_append h

theorem merge_eq_self {base upper : Entries} (h : ∀ entry ∈ upper, base.mergeOne entry = base) :
    base.merge upper = base := by
  induction upper with
  | nil => rw [merge_nil]
  | cons entry upper ih =>
    rw [merge, h entry List.mem_cons_self,
      ih fun other hother => h other (List.mem_cons_of_mem _ hother)]

/-- The keys of merged mappings: those of the first in their order, then the new ones of the second in
theirs. -/
theorem keys_merge {upper : Entries} (h : upper.Distinct) (base : Entries) :
    (base.merge upper).map (·.1)
      = base.map (·.1) ++ (upper.filter fun entry => (base.get? entry.1).isNone).map (·.1) := by
  induction upper generalizing base with
  | nil => simp [merge_nil]
  | cons entry upper ih =>
    obtain ⟨key, value⟩ := entry
    obtain ⟨hkey, hupper⟩ := List.nodup_cons.1 h
    -- no later key is this one, so it is new to the mapping exactly if it was before
    have hlater : ∀ other ∈ upper,
        ((base.mergeOne (key, value)).get? other.1).isNone = (base.get? other.1).isNone := by
      intro other hother
      have hne : other.1.identity ≠ key.identity := fun hsame =>
        hkey (List.mem_map.2 ⟨other, hother, hsame⟩)
      rw [get?_mergeOne, if_neg hne]
    have hone : (base.mergeOne (key, value)).map (·.1)
        = if (base.get? key).isNone then base.map (·.1) ++ [key] else base.map (·.1) := by
      have hput (new : Value) := keys_put key new base
      rw [mergeOne]
      cases hget : base.get? key with
      | none => simpa [get?_eq_none.1 hget] using hput value
      | some old =>
        have hmem : key.identity ∈ base.map (·.1.identity) := by
          by_contra hmem
          rw [get?_eq_none.2 hmem] at hget
          simp at hget
        simpa [hmem] using hput (Value.merge old value)
    rw [merge, ih hupper, List.filter_congr hlater, hone, List.filter_cons]
    split_ifs <;> simp

end Entries

/-! ## Nested mappings -/

namespace Value

def isMap : Value → Bool
  | .map _ => true
  | _ => false

/-- No mapping holds a key twice, however deep in mappings it stands. -/
inductive Keyed : Value → Prop
  | scalar (s : Scalar) : Keyed (.scalar s)
  | list (items : List Value) : Keyed (.list items)
  | map {entries : Entries} (keys : entries.Distinct) (parts : ∀ entry ∈ entries, Keyed entry.2) :
      Keyed (.map entries)

theorem keyed_map_iff {entries : Entries} :
    Keyed (.map entries) ↔ entries.Distinct ∧ ∀ entry ∈ entries, Keyed entry.2 := by
  constructor
  · rintro (_ | _ | ⟨hkeys, hparts⟩)
    exact ⟨hkeys, hparts⟩
  · rintro ⟨hkeys, hparts⟩
    exact .map hkeys hparts

def at? : List Scalar → Value → Option Value
  | [], value => some value
  | key :: path, value => (value.entries.get? key).bind (at? path)

/-- A value blocks a path that leads on from something in it that is no mapping. -/
def Blocks (value : Value) (path : List Scalar) : Prop :=
  ∃ front, front <+: path ∧ front ≠ path ∧
    ∃ other, value.at? front = some other ∧ other.isMap = false

theorem Keyed.part {value : Value} (h : value.Keyed) {key : Scalar} {inner : Value}
    (hinner : value.entries.get? key = some inner) : inner.Keyed := by
  obtain ⟨k, -, hmem⟩ := Entries.mem_of_get? hinner
  cases h with
  | scalar | list => simp [entries] at hmem
  | map _ parts => exact parts _ hmem

theorem get?_entries_merge {upper : Value} (h : upper.Keyed) (base : Value) (key : Scalar)
    (hmap : upper.isMap = true) :
    (merge base upper).entries.get? key
      = Entries.overlay (base.entries.get? key) (upper.entries.get? key) := by
  cases h with
  | scalar | list => simp [isMap] at hmap
  | map keys _ =>
    cases base with
    | map low =>
      rw [merge]
      exact Entries.get?_merge keys low key
    | scalar | list =>
      simp only [merge, entries, Entries.get?]
      cases Entries.get? key _ <;> rfl

theorem merge_of_not_isMap {upper : Value} (h : upper.isMap = false) (base : Value) :
    merge base upper = upper := by
  cases upper with
  | scalar | list => rw [merge]
  | map => simp [isMap] at h

theorem get?_entries_of_not_isMap {value : Value} (h : value.isMap = false) (key : Scalar) :
    value.entries.get? key = none := by
  cases value with
  | scalar | list => rfl
  | map => simp [isMap] at h

/-! ## Paths into merged mappings -/

/-- Where the second mapping holds something, it is laid over what the first one holds there. -/
theorem at?_merge_of_some {path : List Scalar} : ∀ {base upper value : Value}, upper.Keyed →
    upper.at? path = some value →
    (merge base upper).at? path = Entries.overlay (base.at? path) (some value) := by
  induction path with
  | nil =>
    intro base upper value _ hvalue
    obtain rfl := Option.some.inj hvalue
    rfl
  | cons key path ih =>
    intro base upper value h hvalue
    rw [at?] at hvalue
    obtain ⟨next, hnext, hvalue⟩ := Option.bind_eq_some_iff.1 hvalue
    have hmap : upper.isMap = true := by
      by_contra hmap
      rw [get?_entries_of_not_isMap (by simpa using hmap)] at hnext
      simp at hnext
    rw [at?, at?, get?_entries_merge h base key hmap, hnext]
    cases base.entries.get? key with
    | none => exact hvalue
    | some old => exact ih (h.part hnext) hvalue

theorem blocks_cons {value : Value} {key : Scalar} {path : List Scalar} :
    value.Blocks (key :: path)
      ↔ value.isMap = false ∨ ∃ next, value.entries.get? key = some next ∧ next.Blocks path := by
  constructor
  · rintro ⟨front, hfront, hne, other, hother, hmap⟩
    cases front with
    | nil =>
      obtain rfl := Option.some.inj hother
      exact .inl hmap
    | cons first front =>
      obtain ⟨rfl, hbelow⟩ := List.cons_prefix_cons.1 hfront
      obtain ⟨next, hnext, hother⟩ := Option.bind_eq_some_iff.1 hother
      exact .inr ⟨next, hnext, front, hbelow, fun hsame => hne (by rw [hsame]), other, hother, hmap⟩
  · rintro (hmap | ⟨next, hnext, front, hfront, hne, other, hother, hmap⟩)
    · exact ⟨[], List.nil_prefix, (List.cons_ne_nil _ _).symm, value, rfl, hmap⟩
    · refine ⟨key :: front, List.cons_prefix_cons.2 ⟨rfl, hfront⟩, fun hsame => ?_, other, ?_, hmap⟩
      · exact hne (List.cons.inj hsame).2
      · rw [at?, hnext]
        exact hother

/-- Where the second mapping holds nothing, the first one shows through, if nothing of the second blocks
the path. -/
theorem at?_merge_of_none {path : List Scalar} : ∀ {base upper : Value}, upper.Keyed →
    upper.at? path = none →
    (upper.Blocks path → (merge base upper).at? path = none)
      ∧ (¬upper.Blocks path → (merge base upper).at? path = base.at? path) := by
  induction path with
  | nil =>
    intro base upper _ hnone
    simp [at?] at hnone
  | cons key path ih =>
    intro base upper h hnone
    rw [blocks_cons]
    by_cases hmap : upper.isMap = true
    · rw [at?] at hnone
      rw [at?, at?, get?_entries_merge h base key hmap]
      cases hnext : upper.entries.get? key with
      | none => simp [hmap, Entries.overlay_none]
      | some next =>
        rw [hnext] at hnone
        cases base.entries.get? key with
        | none => exact ⟨fun _ => hnone, fun _ => hnone⟩
        | some old => simpa [hmap, Entries.overlay] using @ih old next (h.part hnext) hnone
    · have hmap : upper.isMap = false := by simpa using hmap
      rw [merge_of_not_isMap hmap]
      exact ⟨fun _ => hnone, fun hopen => absurd (.inl hmap) hopen⟩

/-- What stands at a path when a second value is laid over a first one. -/
structure OverriddenAt (base upper merged : Value) (path : List Scalar) : Prop where
  /-- The second value wins if it is no mapping. -/
  plain : ∀ value, upper.at? path = some value → value.isMap = false →
    merged.at? path = some value
  /-- Two mappings are merged. -/
  both : ∀ low high : Entries, base.at? path = some (.map low) → upper.at? path = some (.map high) →
    merged.at? path = some (.map (low.merge high))
  /-- A mapping replaces what is none. -/
  new : ∀ high : Entries, upper.at? path = some (.map high) →
    (∀ low, base.at? path ≠ some (.map low)) →
    merged.at? path = some (.map high)
  /-- Nothing of the first value is left behind something in the second that is no mapping. -/
  blocked : upper.at? path = none → upper.Blocks path → merged.at? path = none
  /-- The first value shows through elsewhere. -/
  left : upper.at? path = none → ¬upper.Blocks path → merged.at? path = base.at? path

theorem overriddenAt_merge {upper : Value} (h : upper.Keyed) (base : Value) (path : List Scalar) :
    OverriddenAt base upper (merge base upper) path where
  plain value hvalue hmap := by
    rw [at?_merge_of_some h hvalue]
    cases base.at? path with
    | none => rfl
    | some old => rw [Entries.overlay, merge_of_not_isMap hmap]
  both low high hlow hhigh := by
    rw [at?_merge_of_some h hhigh, hlow, Entries.overlay, merge]
  new high hhigh hlow := by
    rw [at?_merge_of_some h hhigh]
    cases hbase : base.at? path with
    | none => rfl
    | some old =>
      cases old with
      | map low => exact absurd hbase (hlow low)
      | scalar | list => simp [Entries.overlay, merge]
  blocked hnone := (at?_merge_of_none h hnone).1
  left hnone := (at?_merge_of_none h hnone).2

/-! ## Merging twice -/

theorem overlay_overlay {value : Value} (h : value.Keyed) :
    ∀ base, Entries.overlay (Entries.overlay base (some value)) (some value)
      = Entries.overlay base (some value) := by
  induction h with
  | scalar | list =>
    intro base
    cases base <;> simp [Entries.overlay, merge]
  | @map entries keys _ ih =>
    -- what was merged in under a key is merged in there already
    have hmerged (base : Entries) : (base.merge entries).merge entries = base.merge entries := by
      refine Entries.merge_eq_self fun entry hentry => ?_
      have hget : (base.merge entries).get? entry.1
          = Entries.overlay (base.get? entry.1) (some entry.2) := by
        rw [Entries.get?_merge keys, Entries.get?_of_mem keys hentry]
      have hagain := ih entry hentry (base.get? entry.1)
      rw [← hget] at hagain
      rw [Entries.mergeOne]
      cases hfound : (base.merge entries).get? entry.1 with
      | none =>
        rw [hfound] at hget
        cases hbase : base.get? entry.1 <;> simp [hbase, Entries.overlay] at hget
      | some found =>
        rw [hfound] at hagain
        exact Entries.put_of_get? (hfound.trans hagain.symm)
    have hself : entries.merge entries = entries := by
      simpa [Entries.nil_merge keys] using hmerged []
    intro base
    cases base with
    | none => simp [Entries.overlay, merge, hself]
    | some old =>
      cases old with
      | scalar | list => simp [Entries.overlay, merge, hself]
      | map low => simp [Entries.overlay, merge, hmerged low]

end Value

namespace Entries

/-- At every path the second mapping overrides the first one. Merging it in again changes nothing, the
empty mapping changes nothing on either side, and the keys are those of the first mapping followed by
the new ones of the second. -/
theorem merge_overrides {upper : Entries} (h : Value.Keyed (.map upper)) (base : Entries) :
    (∀ path, Value.OverriddenAt (.map base) (.map upper) (.map (base.merge upper)) path)
      ∧ (base.merge upper).merge upper = base.merge upper
      ∧ upper.merge [] = upper ∧ merge [] upper = upper
      ∧ (base.merge upper).map (·.1)
        = base.map (·.1) ++ (upper.filter fun entry => (base.get? entry.1).isNone).map (·.1) := by
  have hkeys : upper.Distinct := (Value.keyed_map_iff.1 h).1
  have hmerge (low : Entries) :
      Value.merge (.map low) (.map upper) = .map (low.merge upper) := by rw [Value.merge]
  refine ⟨fun path => ?_, ?_, merge_nil upper, nil_merge hkeys, keys_merge hkeys base⟩
  · rw [← hmerge base]
    exact Value.overriddenAt_merge h (.map base) path
  · have htwice := Value.overlay_overlay h (some (.map base))
    simpa [overlay, hmerge] using htwice

/-- Settings with a mapping, a scalar and a list. -/
def lowSettings : Entries :=
  [(.text "logging", .object [("level", .text "INFO"), ("outputs", .list [])]),
   (.text "formatting", .nat 4), (.text "root", .object [("path", .text "/")])]

/-- Settings that put a scalar in the place of a mapping and a mapping in the place of a scalar. -/
def highSettings : Entries :=
  [(.text "extra", .bool true), (.text "formatting", .object [("indent_size", .nat 2)]),
   (.text "logging", .object [("outputs", .texts ["stderr"]), ("level", .object [("b", .null)])]),
   (.text "root", .null)]

theorem merge_overrides_conflicts :
    Value.Keyed (.map highSettings)
      ∧ lowSettings.merge highSettings
        = [(.text "logging", .object [("level", .object [("b", .null)]), ("outputs", .texts ["stderr"])]),
           (.text "formatting", .object [("indent_size", .nat 2)]), (.text "root", .null),
           (.text "extra", .bool true)]
      ∧ (∀ path, Value.OverriddenAt (.map lowSettings) (.map highSettings)
          (.map (lowSettings.merge highSettings)) path)
      ∧ (lowSettings.merge highSettings).merge highSettings = lowSettings.merge highSettings
      ∧ highSettings.merge [] = highSettings ∧ merge [] highSettings = highSettings
      ∧ (lowSettings.merge highSettings).map (·.1)
        = lowSettings.map (·.1)
          ++ (highSettings.filter fun entry => (lowSettings.get? entry.1).isNone).map (·.1) := by
  have hkeyed : Value.Keyed (.map highSettings) := by
    simp [highSettings, Value.keyed_map_iff, Distinct, Value.object, Value.texts, Value.text,
      Value.null, Value.nat, Value.bool, Scalar.identity, Value.Keyed.scalar, Value.Keyed.list]
  exact ⟨hkeyed, by decide +kernel, merge_overrides hkeyed lowSettings⟩

end Entries

end SourceLens
