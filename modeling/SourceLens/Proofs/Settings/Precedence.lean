import SourceLens.Proofs.Builtin.Lawful
import SourceLens.Proofs.Data.Equality
import SourceLens.Proofs.Settings.Defaults

/-!
# Precedence

A source that gives a setting shadows what weaker sources say of it: however they change it, what is
loaded, or the error that is raised, stays the same (`load_of_changedBelow`). The one exception is a
setting that a variable gives and that an override makes a mapping: overrides are merged with the
variables before the files are, so that the mapping is merged with what the files hold. A setting
that no source gives has its default (`setting?_of_load`).
-/

namespace SourceLens.Settings

open Builtin (plain lawful_plain)
open Entries (Distinct Tidy overlay)

/-- A source gives a setting a value. -/
def Sources.Gives (sources : Sources) (packages : Packages) (source : Source) (place : Place)
    (value : Value) : Prop :=
  ∃ entries, sources.given packages source = .ok entries ∧ setting? place entries = some value

/-- Entries in which a section is missing or a mapping, and that differ at most in one of its
settings. -/
structure SameBut (place : Place) (a b : Entries) : Prop where
  rest : a.without place.sectionName = b.without place.sectionName
  left : ∀ value, a.field? place.sectionName = some value → ∃ entries, value = .map entries
  right : ∀ value, b.field? place.sectionName = some value → ∃ entries, value = .map entries
  others : ∀ key ≠ place.key,
    setting? ⟨place.sectionName, key⟩ a = setting? ⟨place.sectionName, key⟩ b

/-- The same error, or entries that differ at most in one setting. -/
inductive AgreeBut (place : Place) : Except LoadError Entries → Except LoadError Entries → Prop
  | ok {a b : Entries} (h : SameBut place a b) : AgreeBut place (.ok a) (.ok b)
  | error (cause : LoadError) : AgreeBut place (.error cause) (.error cause)

/-- Sources that differ at most in what those weaker than `source` say of a setting. -/
structure ChangedBelow (packages : Packages) (source : Source) (place : Place) (s t : Sources) :
    Prop where
  homes : s.system.homes = t.system.homes
  overrides : s.overrides = t.overrides
  /-- The file of the project is found at the same place. -/
  located : projectFile s = projectFile t
  same : ∀ other, source.rank ≤ other.rank → s.given packages other = t.given packages other
  weaker : ∀ other, other.rank < source.rank →
    AgreeBut place (s.given packages other) (t.given packages other)

def setAt (place : Place) (value : Value) (entries : Entries) : Entries :=
  entries.put (.text place.sectionName)
    (.map ((entriesOf (entries.field? place.sectionName)).put (.text place.key) value))

theorem sameBut_setAt {place : Place} {entries : Entries}
    (h : ∀ value, entries.field? place.sectionName = some value → ∃ part, value = .map part)
    (value : Value) : SameBut place entries (setAt place value entries) := by
  have hpart : (setAt place value entries).field? place.sectionName
      = some (.map ((entriesOf (entries.field? place.sectionName)).put (.text place.key) value)) := by
    rw [setAt, Entries.field?, Entries.get?_put, if_pos rfl]
  refine ⟨(Entries.without_put_self _ rfl _ _).symm, h, fun found hfound => ?_, fun key hkey => ?_⟩
  · exact ⟨_, (Option.some.inj (hpart.symm.trans hfound)).symm⟩
  · have hother : (Scalar.text key).identity ≠ (Scalar.text place.key).identity := by
      simpa [Scalar.identity] using hkey
    rw [setting?, setting?, hpart]
    show _ = (Entries.put _ _ _).get? _
    rw [Entries.get?_put, if_neg hother]
    exact (field?_entriesOf _ _).symm

/-! ## One section -/

/-- Sections that are mappings and differ at most in one key. -/
structure PartBut (key : String) (x y : Option Value) : Prop where
  left : IsMapping x
  right : IsMapping y
  others : ∀ name ≠ key, fieldOf x name = fieldOf y name

theorem IsMapping.partBut {x : Option Value} (h : IsMapping x) (key : String) : PartBut key x x :=
  ⟨h, h, fun _ _ => rfl⟩

theorem SameBut.part {place : Place} {a b : Entries} (h : SameBut place a b) (ha : a.Tidy)
    (hb : b.Tidy) :
    PartBut place.key (a.field? place.sectionName) (b.field? place.sectionName) :=
  ⟨⟨h.left, once_tidy ha _⟩, ⟨h.right, once_tidy hb _⟩, h.others⟩

theorem PartBut.overlay {key : String} {x x' y y' : Option Value} (hx : PartBut key x x')
    (hy : PartBut key y y') : PartBut key (overlay x y) (overlay x' y') := by
  refine ⟨hx.left.overlay hy.left, hx.right.overlay hy.right, fun name hname => ?_⟩
  rw [fieldOf_overlay hx.left hy.left, fieldOf_overlay hx.right hy.right, hx.others name hname,
    hy.others name hname]

/-- Where the stronger sections give the key the same value, and no mapping, what the weaker ones
say of it is not seen. -/
theorem PartBut.alike {key : String} {x x' y y' : Option Value} (hx : PartBut key x x')
    (hy : PartBut key y y') {value : Value} (hvalue : ∀ entries, value ≠ .map entries)
    (hleft : fieldOf y key = some value) (hright : fieldOf y' key = some value) :
    Alike (Entries.overlay x y) (Entries.overlay x' y') := by
  have hboth := hx.overlay hy
  refine .inr ⟨hboth.left, hboth.right, fun name => ?_⟩
  by_cases hname : name = key
  · subst hname
    rw [fieldOf_overlay hx.left hy.left, fieldOf_overlay hx.right hy.right, hleft, hright,
      overlay_of_ne_map hvalue, overlay_of_ne_map hvalue]
  · exact hboth.others name hname

theorem PartBut.alike_overridden {key : String} {x x' part upper : Option Value}
    (hx : PartBut key x x') (hpart : IsMapping part) (hupper : Once upper) {value : Value}
    (hgives : fieldOf part key = some value) (hvalue : ∀ entries, value ≠ .map entries)
    (hoverride : ∀ entries, fieldOf upper key ≠ some (.map entries)) :
    Alike (Entries.overlay x (Entries.overlay part upper))
      (Entries.overlay x' (Entries.overlay part upper)) := by
  by_cases hmap : ∀ found, upper = some found → ∃ entries, found = .map entries
  · have hmapping : IsMapping upper := ⟨hmap, hupper⟩
    have hboth := (hpart.overlay hmapping).partBut key
    have hfield := fieldOf_overlay hpart hmapping key
    rw [hgives] at hfield
    cases hkey : fieldOf upper key with
    | none =>
      rw [hkey, Entries.overlay_none] at hfield
      exact hx.alike hboth hvalue hfield hfield
    | some stronger =>
      have hstronger (entries : Entries) : stronger ≠ .map entries := fun h =>
        hoverride entries (h ▸ hkey)
      rw [hkey, overlay_of_ne_map hstronger] at hfield
      exact hx.alike hboth hstronger hfield hfield
  · push Not at hmap
    obtain ⟨found, rfl, hfound⟩ := hmap
    left
    rw [overlay_of_ne_map hfound, overlay_of_ne_map hfound, overlay_of_ne_map hfound]

def layered (part : Source → Option Value) : Option Value :=
  overlay (overlay (part .globalFile) (part .projectFile))
    (overlay (part .environment) (part .overrides))

section Shadowing

variable {key : String} {value : Value} {source : Source} {x y : Source → Option Value}

theorem alike_layered (honce : ∀ other, Once (x other))
    (hgives : fieldOf (x source) key = some value) (hvalue : ∀ entries, value ≠ .map entries)
    (hoverride : source = .environment →
      ∀ entries, fieldOf (x .overrides) key ≠ some (.map entries))
    (hsame : ∀ other, source.rank ≤ other.rank → x other = y other)
    (hweaker : ∀ other, other.rank < source.rank → PartBut key (x other) (y other)) :
    Alike (layered x) (layered y) := by
  have hself : IsMapping (x source) := isMapping_of_fieldOf (honce source) hgives
  have hpart := hself.partBut key
  rw [layered, layered]
  cases source with
  | globalFile =>
    left
    rw [hsame .globalFile (by decide), hsame .projectFile (by decide),
      hsame .environment (by decide), hsame .overrides (by decide)]
  | projectFile =>
    rw [← hsame .projectFile (by decide), ← hsame .environment (by decide),
      ← hsame .overrides (by decide)]
    have hfiles := (hweaker .globalFile (by decide)).alike hpart hvalue hgives hgives
    exact hfiles.overlay ((honce .environment).overlay (honce .overrides))
  | environment =>
    rw [← hsame .environment (by decide), ← hsame .overrides (by decide)]
    have hfiles := (hweaker .globalFile (by decide)).overlay (hweaker .projectFile (by decide))
    exact hfiles.alike_overridden hself (honce .overrides) hgives hvalue (hoverride rfl)
  | overrides =>
    rw [← hsame .overrides (by decide)]
    have hfiles := (hweaker .globalFile (by decide)).overlay (hweaker .projectFile (by decide))
    have henv := hweaker .environment (by decide)
    refine hfiles.alike (henv.overlay hpart) hvalue ?_ ?_
    · rw [fieldOf_overlay henv.left hself, hgives, overlay_of_ne_map hvalue]
    · rw [fieldOf_overlay henv.right hself, hgives, overlay_of_ne_map hvalue]

end Shadowing

/-! ## All entries -/

theorem field?_stack {layer : Source → Entries} (h : ∀ source, (layer source).Tidy) (name : String) :
    (stack layer).field? name = layered fun source => (layer source).field? name := by
  have hupper := (h .environment).keys.merge (layer .overrides)
  rw [stack, layered, Entries.field?, Entries.get?_merge hupper, Entries.get?_merge (h _).keys,
    Entries.get?_merge (h _).keys]
  rfl

theorem without_stack (layer : Source → Entries) (name : String) :
    (stack layer).without name = stack fun source => (layer source).without name := by
  rw [stack, stack, Entries.without_merge, Entries.without_merge, Entries.without_merge]

section Outcome

variable {packages : Packages} (h : packages.Lawful) {place : Place} {source : Source}
  {value : Value}

include h

theorem resolve_stack {homes : Homes} {a b : Source → Entries} (ha : ∀ other, (a other).Tidy)
    (hb : ∀ other, (b other).Tidy) (hplace : place.sectionName ∈ sections.map (·.1))
    (hgives : setting? place (a source) = some value) (hvalue : ∀ entries, value ≠ .map entries)
    (hoverride : source = .environment →
      ∀ entries, setting? place (a .overrides) ≠ some (.map entries))
    (hsame : ∀ other, source.rank ≤ other.rank → a other = b other)
    (hweaker : ∀ other, other.rank < source.rank → SameBut place (a other) (b other)) :
    resolve packages.validator homes (stack a) = resolve packages.validator homes (stack b) := by
  refine resolve_congr h.validator hplace ?_ ?_
  · rw [without_stack, without_stack]
    congr 1
    funext other
    rcases Nat.lt_or_ge other.rank source.rank with hrank | hrank
    · exact (hweaker other hrank).rest
    · rw [hsame other hrank]
  · rw [field?_stack ha, field?_stack hb]
    refine alike_layered (fun other => once_tidy (ha other) _) hgives hvalue hoverride ?_ ?_
    · intro other hrank
      rw [hsame other hrank]
    · exact fun other hrank => (hweaker other hrank).part (ha other) (hb other)

omit h in
theorem ChangedBelow.fail_alike {s t : Sources} (hst : ChangedBelow packages source place s t)
    (other : Source) :
    (∃ a b, s.given packages other = .ok a ∧ t.given packages other = .ok b)
      ∨ ∃ cause, s.given packages other = .error cause
        ∧ t.given packages other = .error cause := by
  rcases Nat.lt_or_ge other.rank source.rank with hrank | hrank
  · have hagree := hst.weaker other hrank
    revert hagree
    generalize s.given packages other = left
    generalize t.given packages other = right
    rintro (⟨hsame⟩ | ⟨cause⟩)
    · exact .inl ⟨_, _, rfl, rfl⟩
    · exact .inr ⟨cause, rfl, rfl⟩
  · rw [← hst.same other hrank]
    cases s.given packages other with
    | ok entries => exact .inl ⟨entries, entries, rfl, rfl⟩
    | error cause => exact .inr ⟨cause, rfl, rfl⟩

theorem load_of_changedBelow {s t : Sources} (hs : s.overrides.Tidy)
    (hplace : place.sectionName ∈ sections.map (·.1)) (hgives : s.Gives packages source place value)
    (hvalue : ∀ entries, value ≠ .map entries)
    (hoverride : source = .environment →
      ∀ entries, ¬ s.Gives packages .overrides place (.map entries))
    (hst : ChangedBelow packages source place s t) : load packages s = load packages t := by
  have hmerged : (mergeAll (s.given packages)).bind (resolve packages.validator s.system.homes)
      = (mergeAll (t.given packages)).bind (resolve packages.validator s.system.homes) := by
    rcases mergeAll_eq_or hst.fail_alike with hfail | ⟨a, b, ha, hb⟩
    · rw [hfail]
    · have hsame (other : Source) (hrank : source.rank ≤ other.rank) : a other = b other :=
        Except.ok.inj ((ha other).symm.trans ((hst.same other hrank).trans (hb other)))
      have hweaker (other : Source) (hrank : other.rank < source.rank) :
          SameBut place (a other) (b other) := by
        have hagree := hst.weaker other hrank
        rw [ha, hb] at hagree
        cases hagree with
        | ok hbut => exact hbut
      obtain ⟨entries, hentries, hsetting⟩ := hgives
      have hlayer : entries = a source := Except.ok.inj (hentries.symm.trans (ha source))
      rw [mergeAll_ok ha, mergeAll_ok hb]
      exact resolve_stack h (fun other => Sources.tidy_given h hs (ha other))
        (fun other => Sources.tidy_given h (hst.overrides ▸ hs) (hb other)) hplace
        (hlayer ▸ hsetting) hvalue
        (fun henv entries hmap => hoverride henv entries ⟨_, ha .overrides, hmap⟩) hsame hweaker
  rw [load, load, resolved_eq h, resolved_eq h, ← hst.homes, ← hst.located, hmerged]

end Outcome

/-! ## Defaults -/

theorem fieldOf_overlay_eq_none {x y : Option Value} {key : String} (hy : Once y)
    (hx : fieldOf x key = none) (hnone : fieldOf y key = none) :
    fieldOf (overlay x y) key = none := by
  rcases overlay_cases x y with hkept | hkept | ⟨a, b, rfl, rfl, hmerged⟩
  · rwa [hkept]
  · rwa [hkept]
  · rw [hmerged]
    show (a.merge b).get? (.text key) = none
    rw [Entries.get?_merge (hy b rfl), show a.get? (.text key) = none from hx,
      show b.get? (.text key) = none from hnone, Entries.overlay_none]

theorem setting?_stack_eq_none {layer : Source → Entries} (h : ∀ source, (layer source).Tidy)
    {place : Place} (hnone : ∀ source, setting? place (layer source) = none) :
    setting? place (stack layer) = none := by
  have honce (source : Source) := once_tidy (h source) place.sectionName
  rw [setting?, field?_stack h, layered]
  refine fieldOf_overlay_eq_none ((honce _).overlay (honce _)) ?_ ?_
  · exact fieldOf_overlay_eq_none (honce _) (hnone _) (hnone _)
  · exact fieldOf_overlay_eq_none (honce _) (hnone _) (hnone _)

theorem isMapping_stack {layer : Source → Entries} (h : ∀ source, (layer source).Tidy)
    {name : String}
    (hmap : ∀ source value, (layer source).field? name = some value → ∃ part, value = .map part) :
    IsMapping ((stack layer).field? name) := by
  have hpart (source : Source) : IsMapping ((layer source).field? name) :=
    ⟨hmap source, once_tidy (h source) name⟩
  rw [field?_stack h]
  exact ((hpart _).overlay (hpart _)).overlay ((hpart _).overlay (hpart _))

/-- When loading succeeds, a setting of a section that no source gives has its default. -/
theorem setting?_of_load {packages : Packages} (h : packages.Lawful) {s : Sources}
    (hs : s.overrides.Tidy) {value : Value} (hload : load packages s = .ok value) {place : Place}
    (hplace : place ∈ places)
    (hsections : ∀ source entries found, s.given packages source = .ok entries →
      entries.field? place.sectionName = some found → ∃ part, found = .map part)
    (hnone : ∀ source value, ¬ s.Gives packages source place value) :
    setting? place value.entries = setting? place ({} : Config).toValue.entries := by
  obtain ⟨resolved, hresolved, hconfirm⟩ := bind_eq_ok.1 hload
  rw [resolved_eq h] at hresolved
  obtain ⟨path, -, hresolved⟩ := bind_eq_ok.1 hresolved
  obtain ⟨entries, hmerged, hresolve⟩ := bind_eq_ok.1 hresolved
  obtain ⟨layer, hlayer, rfl⟩ := layers_of_mergeAll hmerged
  have htidy (source : Source) : (layer source).Tidy := Sources.tidy_given h hs (hlayer source)
  have hpart := isMapping_stack htidy fun source found => hsections source _ found (hlayer source)
  refine setting?_of_confirm h.validator hplace hpart.mapping ?_ hresolve hconfirm
  refine setting?_stack_eq_none htidy fun source => ?_
  by_contra hsome
  obtain ⟨value, hvalue⟩ := Option.ne_none_iff_exists'.1 hsome
  exact hnone source value ⟨_, hlayer source, hvalue⟩

/-! ## Precedence -/

/-- A setting that some source gives, and that is no mapping there, hides what weaker sources say of
it: changing them there changes neither the settings nor the error. Where a variable gives it, it
must not be a mapping among the overrides. A setting that no source gives has its default. -/
theorem precedence {packages : Packages} (h : packages.Lawful) (s : Sources)
    (hs : s.overrides.Tidy) :
    (∀ (source : Source) (place : Place) (value : Value) (t : Sources),
      place.sectionName ∈ sections.map (·.1) →
      s.Gives packages source place value → (∀ entries, value ≠ .map entries) →
      (source = .environment → ∀ entries, ¬ s.Gives packages .overrides place (.map entries)) →
      ChangedBelow packages source place s t → load packages s = load packages t)
    ∧ ∀ value, load packages s = .ok value → ∀ place ∈ places,
      (∀ source entries found, s.given packages source = .ok entries →
        entries.field? place.sectionName = some found → ∃ part, found = .map part) →
      (∀ source value, ¬ s.Gives packages source place value) →
      setting? place value.entries = setting? place ({} : Config).toValue.entries :=
  ⟨fun _ _ _ _ hplace hgives hvalue hoverride hst =>
      load_of_changedBelow h hs hplace hgives hvalue hoverride hst,
    fun _ hload _ hplace hsections hnone => setting?_of_load h hs hload hplace hsections hnone⟩

/-! ## What concrete sources give -/

section Concrete

variable {packages : Packages} {place : Place}

theorem agreeBut_nil {x y : Except LoadError Entries} (hx : x.toOption = some [])
    (hy : y.toOption = some []) : AgreeBut place x y := by
  rw [eq_ok_of_toOption hx, eq_ok_of_toOption hy]
  exact .ok ⟨rfl, nofun, nofun, fun _ _ => rfl⟩

theorem agreeBut_set {x y : Except LoadError Entries} (value : Value) (hx : x.toOption = some [])
    (hy : y.toOption = some (setAt place value [])) : AgreeBut place x y := by
  rw [eq_ok_of_toOption hx, eq_ok_of_toOption hy]
  exact .ok (sameBut_setAt (fun _ h => by cases h) value)

theorem gives_of_toOption {sources : Sources} {source : Source} {value : Value}
    (h : (sources.given packages source).toOption.bind (setting? place) = some value) :
    sources.Gives packages source place value := by
  obtain ⟨entries, hgiven, hsetting⟩ := Option.bind_eq_some_iff.1 h
  exact ⟨entries, eq_ok_of_toOption hgiven, hsetting⟩

theorem not_gives_of_toOption {sources : Sources} {source : Source}
    (h : (sources.given packages source).toOption.bind (setting? place) = none) (value : Value) :
    ¬ sources.Gives packages source place value := by
  rintro ⟨entries, hgiven, hsetting⟩
  rw [hgiven] at h
  exact absurd (hsetting.symm.trans h) (by simp)

end Concrete

/-- An override sets the level, and nothing else is given. -/
def quiet : Sources where
  system := Builtin.system "/work" "/home/someone" []
  globalPath := "/etc/settings.yaml".toList
  overrides := [(.text "logging", .map [(.text "level", .text "ERROR")])]

/-- The same override, above files and a variable that make the level something else. -/
def noisy : Sources :=
  { quiet with
    system := Builtin.system "/work" "/home/someone"
      [("/etc/settings.yaml", "logging: {level: 7}".toList),
        ("/work/.polyscan/config.yaml", "logging: {level: {x: 1}}".toList)]
    vars := [("POLYSCAN__LOGGING__LEVEL", "loud")] }

theorem changedBelow_noisy :
    ChangedBelow plain .overrides ⟨"logging", "level"⟩ quiet noisy where
  homes := rfl
  overrides := rfl
  located := rfl
  same other h := by
    cases other with
    | overrides => rfl
    | globalFile | projectFile | environment => exact absurd h (by decide)
  weaker other h := by
    cases other with
    | globalFile => exact agreeBut_set (.int 7) (by decide +kernel) (by decide +kernel)
    | projectFile =>
      exact agreeBut_set (.map [(.text "x", .int 1)]) (by decide +kernel) (by decide +kernel)
    | environment => exact agreeBut_set (.text "loud") (by decide +kernel) (by decide +kernel)
    | overrides => exact absurd h (by decide)

theorem precedence_quiet :
    load plain quiet = load plain noisy
      ∧ ∃ value, load plain quiet = .ok value
        ∧ setting? ⟨"formatting", "indent_size"⟩ value.entries = some (.nat 4) := by
  have htidy : quiet.overrides.Tidy :=
    ⟨by simp [quiet, Distinct], by simp [quiet, Entries.PartsDistinct, Distinct]⟩
  have h := precedence lawful_plain quiet htidy
  refine ⟨h.1 .overrides ⟨"logging", "level"⟩ (.text "ERROR") noisy (by decide)
    (gives_of_toOption (by decide +kernel)) (by simp [Value.text]) (by simp) changedBelow_noisy, ?_⟩
  have hload : load plain quiet = .ok (Config.toValue { logging := { level := .error } }) :=
    eq_ok_of_toOption (by decide +kernel)
  refine ⟨_, hload, ?_⟩
  rw [h.2 _ hload ⟨"formatting", "indent_size"⟩ (by decide) ?_ fun source =>
    not_gives_of_toOption (by cases source <;> decide +kernel)]
  · rfl
  · intro source entries found hgiven hfound
    have hnone : (quiet.given plain source).toOption.bind (·.field? "formatting") = none := by
      cases source <;> decide +kernel
    rw [hgiven] at hnone
    exact absurd (hfound.symm.trans hnone) (by simp)

/-- A variable sets the level, and an override makes it a mapping. -/
def bare : Sources where
  system := Builtin.system "/work" "/home/someone" []
  globalPath := "/etc/settings.yaml".toList
  vars := [("POLYSCAN__LOGGING__LEVEL", "DEBUG")]
  overrides := [(.text "logging", .map [(.text "level", .map [(.text "a", .int 1)])])]

/-- The same, above a file that makes the level another mapping. -/
def exposed : Sources :=
  { bare with
    system := Builtin.system "/work" "/home/someone"
      [("/work/.polyscan/config.yaml", "logging: {level: {b: 2}}".toList)] }

def reported? : Except LoadError Value → Option Value
  | .error (.config (.invalidValue _ value _)) => some value
  | _ => none

/-- A mapping among the overrides is merged with that of a file, though a variable stands between
them that makes the setting a text. -/
theorem mapping_exposes_files :
    bare.Gives plain .environment ⟨"logging", "level"⟩ (.text "DEBUG")
      ∧ ChangedBelow plain .environment ⟨"logging", "level"⟩ bare exposed
      ∧ load plain bare ≠ load plain exposed := by
  refine ⟨gives_of_toOption (by decide +kernel),
    ⟨rfl, rfl, rfl, fun other h => ?_, fun other h => ?_⟩, fun h => ?_⟩
  · cases other with
    | environment => rfl
    | overrides => rfl
    | globalFile | projectFile => exact absurd h (by decide)
  · cases other with
    | globalFile => exact agreeBut_nil (by decide +kernel) (by decide +kernel)
    | projectFile =>
      exact agreeBut_set (.map [(.text "b", .int 2)]) (by decide +kernel) (by decide +kernel)
    | environment | overrides => exact absurd h (by decide)
  · exact absurd (congrArg reported? h) (by decide +kernel)

end SourceLens.Settings
