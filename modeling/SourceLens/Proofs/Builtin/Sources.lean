import SourceLens.Proofs.Builtin.Documents
import SourceLens.Settings.Schema

/-!
# What variables and overrides give

The sections that variables give stand once each, in the order in which they are declared, and so do
the settings in them, because of how variables are gathered. The same holds of overrides as long as
the caller gives each of them once.
-/

namespace SourceLens.Builtin

open Settings
open Entries (Distinct Tidy)

/-! ## Variables -/

theorem distinct_apply {entries : Entries} (h : entries.Distinct) (key : Scalar)
    (assignment : Assignment) : (assignment.apply key entries).Distinct := by
  cases assignment with
  | set value => exact h.put key value
  | nothing =>
    rw [Assignment.apply]
    split
    · exact h.put key .null
    · exact h.put key .null
    · exact h

theorem distinct_setPath (assignment : Assignment) (path : List Text) {entries : Entries}
    (h : entries.Distinct) : (setPath assignment path entries).Distinct := by
  fun_cases setPath assignment path entries with
  | case1 => exact h
  | case2 last => exact distinct_apply h _ _
  | case3 => exact h.put _ _
  | case4 => exact h.put _ _
  | case5 => exact h

theorem distinct_namedSettings {options : Options} {name : String} {vars : List (Text × String)}
    {entries found : Entries} (hentries : entries.Distinct)
    (h : namedSettings options name vars entries = some found) : found.Distinct := by
  induction vars generalizing entries with
  | nil =>
    rw [namedSettings] at h
    exact Option.some.inj h ▸ hentries
  | cons var vars ih =>
    rw [namedSettings] at h
    split_ifs at h
    · dsimp only at h
      split at h
      · exact ih (distinct_setPath _ _ hentries) h
      · cases h
    · exact ih hentries h

theorem distinct_sectionMapping {options : Options} {known : List String} {entries found : Entries}
    (hentries : entries.Distinct) (h : sectionMapping options known entries = .map found) :
    found.Distinct := by
  rw [sectionMapping] at h
  split_ifs at h
  · cases h
    exact hentries
  · cases h
    exact Entries.distinct_ofList _

theorem distinct_wholeSection {options : Options} {vars : List (Text × String)} {name : String}
    {entries : Entries} (h : wholeSection options vars name = .document (.map entries)) :
    entries.Distinct := by
  rw [wholeSection] at h
  split at h
  · cases h
  · split_ifs at h
    split at h <;> cases h
    rename_i hread
    exact Json.distinct_read? hread

theorem distinct_sectionValue {options : Options} {vars : List (Text × String)} {name : String}
    {known : List String} {entries : Entries}
    (h : sectionValue options vars name known = .ok (some (.map entries))) : entries.Distinct := by
  rw [sectionValue] at h
  split at h <;> try cases h
  · rename_i document hdocument
    split at h
    · cases h
    · rename_i named hnamed
      have hmerged := (distinct_wholeSection hdocument).merge named
      exact distinct_sectionMapping hmerged (by simpa using h)
  · rename_i hnot hdocument
    exact distinct_wholeSection hdocument
  · split at h <;> try cases h
    rename_i named _ hnamed
    have hdistinct := distinct_namedSettings Entries.distinct_nil hnamed
    exact distinct_sectionMapping hdistinct (by simpa using h)

theorem sectionEntries_cons {options : Options} {vars : List (Text × String)} {name : String}
    {keys : List String} {rest : List (String × List String)} {entries : Entries}
    (h : sectionEntries options vars ((name, keys) :: rest) = .ok entries) :
    ∃ value later, sectionValue options vars name keys = .ok value
      ∧ sectionEntries options vars rest = .ok later
      ∧ entries = (value.map fun v => (Scalar.text name, v)).toList ++ later := by
  rw [sectionEntries] at h
  obtain ⟨value, hvalue, h⟩ := bind_eq_ok.1 h
  obtain ⟨later, hlater, h⟩ := bind_eq_ok.1 h
  exact ⟨value, later, hvalue, hlater, (Except.ok.inj h).symm⟩

theorem keys_sectionEntries {options : Options} {vars : List (Text × String)}
    {known : List (String × List String)} {entries : Entries}
    (h : sectionEntries options vars known = .ok entries) :
    (entries.map (·.1)).Sublist (known.map fun (name, _) => .text name) := by
  induction known generalizing entries with
  | nil =>
    cases h
    exact List.Sublist.slnil
  | cons first rest ih =>
    obtain ⟨value, later, -, hlater, rfl⟩ := sectionEntries_cons h
    cases value with
    | none => exact (ih hlater).cons _
    | some value => exact (ih hlater).cons_cons _

theorem mem_sectionEntries {options : Options} {vars : List (Text × String)}
    {known : List (String × List String)} {entries : Entries}
    (h : sectionEntries options vars known = .ok entries) {entry : Scalar × Value}
    (hentry : entry ∈ entries) :
    ∃ name keys, sectionValue options vars name keys = .ok (some entry.2) := by
  induction known generalizing entries with
  | nil =>
    cases h
    exact absurd hentry List.not_mem_nil
  | cons first rest ih =>
    obtain ⟨value, later, hvalue, hlater, rfl⟩ := sectionEntries_cons h
    rcases List.mem_append.1 hentry with hentry | hentry
    · obtain ⟨found, rfl, rfl⟩ := by simpa using hentry
      exact ⟨_, _, hvalue⟩
    · exact ih hlater hentry

theorem distinct_of_sublist {entries : Entries}
    (h : (entries.map (·.1)).Sublist (sections.map fun (name, _) => Scalar.text name)) :
    entries.Distinct := by
  have hsections : ((sections.map fun (name, _) => Scalar.text name).map Scalar.identity).Nodup := by
    decide
  have hkeys := hsections.sublist (h.map Scalar.identity)
  rwa [List.map_map] at hkeys

theorem tidy_environmentEntries {options : Options} {vars : Variables} {entries : Entries}
    (h : environmentEntries sections options vars = .ok entries) : entries.Tidy := by
  refine ⟨distinct_of_sublist (keys_sectionEntries h), fun entry hentry part hpart => ?_⟩
  obtain ⟨name, keys, hvalue⟩ := mem_sectionEntries h hentry
  exact distinct_sectionValue (hpart ▸ hvalue)

/-! ## Overrides -/

/-- The sections among overrides, each under its own name. -/
def namedOverrides (overrides : Entries) (known : List (String × List String)) : Entries :=
  known.filterMap fun (name, _) =>
    (overrides.find? fun (key, _) => namesSection name key).map fun (_, value) =>
      (Scalar.text name, value)

theorem keys_namedOverrides (overrides : Entries) (known : List (String × List String)) :
    ((namedOverrides overrides known).map (·.1)).Sublist
      (known.map fun (name, _) => Scalar.text name) := by
  induction known with
  | nil => exact List.Sublist.slnil
  | cons first rest ih =>
    obtain ⟨name, keys⟩ := first
    rw [namedOverrides, List.filterMap_cons]
    dsimp only
    cases overrides.find? fun (key, _) => namesSection name key with
    | none => exact ih.cons _
    | some found => exact ih.cons_cons _

theorem namesSection_self : ∀ known ∈ sections, namesSection known.1 (.text known.1) := by
  decide +kernel

theorem mem_namedOverrides {overrides : Entries} {known : List (String × List String)}
    {entry : Scalar × Value} (h : entry ∈ namedOverrides overrides known) :
    (∃ k ∈ known, entry.1 = .text k.1) ∧ ∃ pair ∈ overrides, entry.2 = pair.2 := by
  obtain ⟨⟨name, keys⟩, hname, hfound⟩ := List.mem_filterMap.1 h
  obtain ⟨pair, hpair, rfl⟩ := Option.map_eq_some_iff.1 hfound
  exact ⟨⟨_, hname, rfl⟩, pair, List.mem_of_find?_eq_some hpair, rfl⟩

/-- The overrides that are neither sections nor options. -/
def otherOverrides (overrides : Entries) : Entries :=
  overrides.filter fun (key, _) =>
    !isOption key && !sections.any fun (name, _) => namesSection name key

theorem overrideEntries_eq (overrides : Entries) :
    overrideEntries sections overrides = namedOverrides overrides sections ++ otherOverrides overrides :=
  rfl

theorem identity_ne_of_mem {overrides : Entries} {named other : Scalar × Value}
    (hnamed : named ∈ namedOverrides overrides sections) (hother : other ∈ otherOverrides overrides) :
    named.1.identity ≠ other.1.identity := by
  obtain ⟨⟨known, hknown, hkey⟩, -⟩ := mem_namedOverrides hnamed
  intro hsame
  rw [hkey] at hsame
  have hlike : namesSection known.1 other.1 := by
    rw [Scalar.identity_eq_text.1 hsame.symm]
    exact namesSection_self known hknown
  have hany : sections.any (fun (name, _) => namesSection name other.1) :=
    List.any_eq_true.2 ⟨known, hknown, hlike⟩
  have hneither := (List.mem_filter.1 hother).2
  simp [hany] at hneither

theorem tidy_overrideEntries {overrides : Entries} (h : overrides.Tidy) :
    (overrideEntries sections overrides).Tidy := by
  rw [overrideEntries_eq]
  constructor
  · have hother : (otherOverrides overrides).Distinct :=
      h.keys.sublist (List.filter_sublist.map _)
    rw [Distinct, List.map_append]
    refine (distinct_of_sublist (keys_namedOverrides overrides sections)).append hother ?_
    intro identity hleft hright
    obtain ⟨named, hnamed, rfl⟩ := List.mem_map.1 hleft
    obtain ⟨other, hother, hsame⟩ := List.mem_map.1 hright
    exact identity_ne_of_mem hnamed hother hsame.symm
  · intro entry hentry part hpart
    rcases List.mem_append.1 hentry with hentry | hentry
    · obtain ⟨-, pair, hpair, hvalue⟩ := mem_namedOverrides hentry
      exact h.parts pair hpair part (hvalue ▸ hpart)
    · exact h.parts entry (List.mem_of_mem_filter hentry) part hpart

end SourceLens.Builtin
