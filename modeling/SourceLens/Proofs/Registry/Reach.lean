import SourceLens.Proofs.Registry.History
import SourceLens.Text.Lemmas

/-!
# Extensions that can be reached

A file is looked up by what follows the last dot of its name. An extension is therefore reached by a
file that bears it if its only dot is the first character. An extension with a further dot is listed
like any other, but a file that bears it goes to the handler of the part from the last dot on, which
need not declare the extension (`reached_iff`).
-/

namespace SourceLens

namespace FilePath

theorem findLast?_dot {front last : Text} (hlast : '.' ∉ last) :
    Text.findLast? ['.'] (front ++ '.' :: last) = some front.length := by
  induction front with
  | nil =>
    have hnone : Text.findLast? ['.'] last = none := by
      induction last with
      | nil => rfl
      | cons c last ih =>
        obtain ⟨hc, hlast⟩ := not_or.1 (mt List.mem_cons.2 hlast)
        simp [Text.findLast?, ih hlast, hc]
    simp [Text.findLast?, hnone]
  | cons c front ih => simp [Text.findLast?, ih]

theorem suffixOf_append {front last : Text} (hlast : '.' ∉ last) :
    suffixOf (front ++ '.' :: last) = if front = [] ∨ last = [] then [] else '.' :: last := by
  unfold suffixOf
  rw [findLast?_dot hlast]
  simp only [List.length_append, List.length_cons, List.drop_left]
  have hfront := List.length_pos_iff (l := front)
  have hback := List.length_pos_iff (l := last)
  by_cases hempty : front = [] ∨ last = []
  · rw [if_pos hempty, if_neg]
    rintro ⟨hbefore, hafter⟩
    rcases hempty with hempty | hempty
    · exact hfront.1 hbefore hempty
    · exact hback.1 (by omega) hempty
  · obtain ⟨hbefore, hafter⟩ := not_or.1 hempty
    have hlength := hback.2 hafter
    rw [if_neg hempty, if_pos ⟨hfront.2 hbefore, by omega⟩]

theorem suffixOf_of_not_mem {name : Text} (h : '.' ∉ name) : suffixOf name = [] := by
  unfold suffixOf
  cases hfind : Text.findLast? ['.'] name with
  | none => rfl
  | some i =>
    -- a place of the dot would show the dot
    rw [Text.findLast?_eq_getLast?] at hfind
    obtain ⟨-, hdot⟩ := Text.mem_places.1 (List.mem_of_getLast? hfind)
    exact absurd (List.mem_of_mem_drop (hdot.subset List.mem_cons_self)) h

theorem suffix_of_not_mem {name : Text} (h : '/' ∉ name) (hne : name ≠ []) (hdot : name ≠ ['.']) :
    suffix name = suffixOf name := by
  simp [suffix, fileName, components, Text.splitOn_of_not_mem h, hne, hdot]

end FilePath

namespace Registry

def fileWith (extension : String) : Text := "file".toList ++ extension.toList

/-- Whether a file with an extension goes to a handler that declares the extension. -/
def Reached (registry : Registry) (extension : String) : Prop :=
  ∃ entry, registry.handlerForFile (fileWith extension) = some entry
    ∧ entry.declares extension = true

theorem suffix_fileWith {extension : String} (h : '/' ∉ extension.toList) :
    FilePath.suffix (fileWith extension) = FilePath.suffixOf (fileWith extension) := by
  refine FilePath.suffix_of_not_mem ?_ (by simp [fileWith]) (by simp [fileWith])
  rw [fileWith, List.mem_append, not_or]
  exact ⟨by decide, h⟩

section

variable {history : List Registered} {extension : String}

theorem mem_extensions :
    extension ∈ (ofHistory history).extensions ↔ ∃ entry ∈ history, entry.declares extension := by
  have hlisted : extension ∈ (ofHistory history).extensions
      ↔ extension ∈ (assignments history).map (·.1) := (reflects_ofHistory history).table.keys.mem
  rw [hlisted]
  simp [assignments, assignmentsOf, Registered.declares]

theorem fold_of_mem_extensions (h : extension ∈ (ofHistory history).extensions) :
    ∃ entry ∈ history, ∃ declared ∈ entry.handler.descriptor.extensions,
      extension.toList = lower declared.toList := by
  obtain ⟨entry, hentry, hdeclares⟩ := mem_extensions.1 h
  obtain ⟨declared, hdeclared, hfold⟩ := List.any_eq_true.1 hdeclares
  refine ⟨entry, hentry, declared, hdeclared, ?_⟩
  rw [← of_decide_eq_true hfold, fold, String.toList_ofList]

/-- Whether a file with an extension, whose last dot stands between `front` and `last`, goes to a
handler that declares the extension. -/
theorem reached_append_iff (hslash : '/' ∉ extension.toList)
    (hlower : ∀ c ∈ extension.toList, Text.IsLower c) {front last : Text}
    (hextension : extension.toList = front ++ '.' :: last) (hlast : '.' ∉ last) :
    (ofHistory history).Reached extension ↔ last ≠ [] ∧
      ∃ entry, history.reverse.find? (·.declares (String.ofList ('.' :: last))) = some entry
        ∧ entry.declares extension = true := by
  have hname : fileWith extension = ("file".toList ++ front) ++ '.' :: last := by
    rw [fileWith, hextension, List.append_assoc]
  have hsuffix : FilePath.suffix (fileWith extension) = if last = [] then [] else '.' :: last := by
    rw [suffix_fileWith hslash, hname, FilePath.suffixOf_append hlast]
    simp
  have hfixed : lower ('.' :: last) = '.' :: last := by
    refine Text.lower_of_isLower fun c hc => hlower c ?_
    rw [hextension]
    exact List.mem_append_right front hc
  rw [Reached, handlerForFile_ofHistory, hsuffix]
  by_cases hempty : last = []
  · simp [hempty]
  · simp [hempty, hfixed]

end

/-- A listed extension without a slash is reached by a file that bears it exactly if something
follows its last dot and either this dot is its first character, or the handler registered last of
those that declare the part from this dot on declares the whole extension too. -/
theorem reached_iff {history : List Registered}
    (hslash : ∀ entry ∈ history, ∀ declared ∈ entry.handler.descriptor.extensions,
      '/' ∉ declared.toList)
    {extension : String} (hlisted : extension ∈ (ofHistory history).extensions) :
    (ofHistory history).Reached extension ↔
      ∃ front last, extension.toList = front ++ '.' :: last ∧ '.' ∉ last ∧ last ≠ []
        ∧ (front = [] ∨ ∃ entry,
          history.reverse.find? (·.declares (String.ofList ('.' :: last))) = some entry
            ∧ entry.declares extension = true) := by
  obtain ⟨entry, hentry, declared, hdeclared, hfold⟩ := fold_of_mem_extensions hlisted
  have hlower : ∀ c ∈ extension.toList, Text.IsLower c := by
    rw [hfold]
    exact fun c => Text.isLower_of_mem_lowerFrom
  have hnone : '/' ∉ extension.toList := by
    rw [hfold, Text.mem_lower (by decide) (by decide)]
    exact hslash entry hentry declared hdeclared
  constructor
  · intro hreached
    by_cases hdot : '.' ∈ extension.toList
    · obtain ⟨last, front, hreverse, hlast⟩ :=
        List.eq_append_cons_of_mem (List.mem_reverse.2 hdot)
      have hsplit : extension.toList = front.reverse ++ '.' :: last.reverse := by
        rw [← List.reverse_reverse extension.toList, hreverse]
        simp
      have hlast' : '.' ∉ last.reverse := by simpa using hlast
      rw [reached_append_iff hnone hlower hsplit hlast'] at hreached
      exact ⟨_, _, hsplit, hlast', hreached.1, .inr hreached.2⟩
    · obtain ⟨found, hfound, -⟩ := hreached
      have hsuffix : FilePath.suffix (fileWith extension) = [] := by
        rw [suffix_fileWith hnone]
        apply FilePath.suffixOf_of_not_mem
        rw [fileWith, List.mem_append, not_or]
        exact ⟨by decide, hdot⟩
      rw [handlerForFile_ofHistory, if_pos hsuffix] at hfound
      exact absurd hfound (by simp)
  · rintro ⟨front, last, hsplit, hlast, hne, hfront⟩
    rw [reached_append_iff hnone hlower hsplit hlast]
    refine ⟨hne, ?_⟩
    rcases hfront with rfl | hshared
    · have hwhole : String.ofList ('.' :: last) = extension := by
        rw [← List.nil_append ('.' :: last), ← hsplit, String.ofList_toList]
      rw [hwhole]
      obtain ⟨declarer, hmem, hdeclares⟩ := mem_extensions.1 hlisted
      have hsome : (history.reverse.find? (·.declares extension)).isSome :=
        List.find?_isSome.2 ⟨declarer, List.mem_reverse.2 hmem, hdeclares⟩
      obtain ⟨found, hfound⟩ := Option.isSome_iff_exists.1 hsome
      exact ⟨found, hfound, List.find?_some (p := (Registered.declares · extension)) hfound⟩
    · exact hshared

/-- A handler of stylesheets that goes by given extensions. -/
def styleHandler (serial : Nat) (extensions : List String) : Registered :=
  { serial, handler := { language := .css, descriptor := { extensions, languageId := "style" } } }

/-- Two handlers, of which the second takes over an extension of the first. -/
def shadowedHistory : List Registered := [styleHandler 0 [".Tar.GZ", ".gz"], styleHandler 1 [".GZ"]]

theorem reached_iff_shadowed :
    (∀ entry ∈ shadowedHistory, ∀ declared ∈ entry.handler.descriptor.extensions,
        '/' ∉ declared.toList)
      ∧ ".tar.gz" ∈ (ofHistory shadowedHistory).extensions
      ∧ ((ofHistory shadowedHistory).Reached ".tar.gz" ↔
        ∃ front last, ".tar.gz".toList = front ++ '.' :: last ∧ '.' ∉ last ∧ last ≠ []
          ∧ (front = [] ∨ ∃ entry,
            shadowedHistory.reverse.find? (·.declares (String.ofList ('.' :: last))) = some entry
              ∧ entry.declares ".tar.gz" = true)) := by
  have hslash : ∀ entry ∈ shadowedHistory, ∀ declared ∈ entry.handler.descriptor.extensions,
      '/' ∉ declared.toList := by
    decide
  have hlisted : ".tar.gz" ∈ (ofHistory shadowedHistory).extensions := by decide +kernel
  exact ⟨hslash, hlisted, reached_iff hslash hlisted⟩

/-- An extension with a dot at its start, more behind it and no slash is listed and yet not reached:
files in `.d.ts` are looked up under `.ts`. -/
theorem listed_not_reached :
    (∀ declared ∈ (styleHandler 0 [".d.ts"]).handler.descriptor.extensions,
        declared.toList.head? = some '.' ∧ 1 < declared.toList.length ∧ '/' ∉ declared.toList)
      ∧ (ofHistory [styleHandler 0 [".d.ts"]]).extensions = [".d.ts"]
      ∧ ¬(ofHistory [styleHandler 0 [".d.ts"]]).Reached ".d.ts" := by
  have hnone : ((ofHistory [styleHandler 0 [".d.ts"]]).handlerForFile (fileWith ".d.ts")).isNone := by
    decide +kernel
  refine ⟨by decide, by decide +kernel, ?_⟩
  rintro ⟨entry, hentry, -⟩
  rw [hentry] at hnone
  exact absurd hnone (by simp)

end Registry

end SourceLens
