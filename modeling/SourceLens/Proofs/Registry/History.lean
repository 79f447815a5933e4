import Mathlib.Data.List.Basic
import Mathlib.Data.List.Induction
import SourceLens.Proofs.Text.LowerFixed
import SourceLens.Registry

/-!
# Registries and their history

What a registry answers is a function of the handlers that were registered, in order. The table of
extensions is kept against the list of all assignments made so far: it holds the last handler of each
extension (`Tabulates.lookup`) and lists the extensions as they first came up (`Tabulates.keys`). One
assignment keeps this, so registering a handler does, and so does registering any number of them
(`Reflects.registerAll`).
-/

namespace SourceLens

/-- A listing has the members of a list, each once, in the order in which they first come up. -/
structure FirstSeen {α : Type} [DecidableEq α] (items listing : List α) : Prop where
  mem : ∀ {item}, item ∈ listing ↔ item ∈ items
  ordered : listing.Pairwise fun a b => items.idxOf a < items.idxOf b

namespace FirstSeen

variable {α : Type} [DecidableEq α] {items listing : List α} {item : α}

theorem nil : FirstSeen ([] : List α) [] := ⟨Iff.rfl, .nil⟩

theorem ordered_append (h : FirstSeen items listing) (later : List α) :
    listing.Pairwise fun a b => (items ++ later).idxOf a < (items ++ later).idxOf b := by
  refine h.ordered.imp_of_mem fun ha hb hlt => ?_
  rwa [List.idxOf_append_of_mem (h.mem.1 ha), List.idxOf_append_of_mem (h.mem.1 hb)]

theorem again (h : FirstSeen items listing) (hitem : item ∈ items) :
    FirstSeen (items ++ [item]) listing := by
  refine ⟨?_, h.ordered_append [item]⟩
  intro other
  rw [h.mem, List.mem_append, List.mem_singleton]
  constructor
  · exact .inl
  · rintro (hother | rfl)
    · exact hother
    · exact hitem

theorem new (h : FirstSeen items listing) (hitem : item ∉ items) :
    FirstSeen (items ++ [item]) (listing ++ [item]) := by
  refine ⟨by simp [h.mem], List.pairwise_append.2 ⟨h.ordered_append [item], by simp, ?_⟩⟩
  intro a ha b hb
  obtain rfl := List.mem_singleton.1 hb
  rw [List.idxOf_append_of_mem (h.mem.1 ha), List.idxOf_append_of_notMem hitem]
  have hlt := List.idxOf_lt_length_of_mem (h.mem.1 ha)
  omega

theorem collect (h : FirstSeen items listing) (later : List α) :
    FirstSeen (items ++ later) (later.foldl
      (fun seen item => if seen.contains item then seen else seen ++ [item]) listing) := by
  induction later generalizing items listing with
  | nil => simpa using h
  | cons item later ih =>
    rw [List.foldl_cons, List.append_cons]
    by_cases hseen : item ∈ items
    · rw [if_pos (by simpa using h.mem.2 hseen)]
      exact ih (h.again hseen)
    · rw [if_neg (by simpa using mt h.mem.1 hseen)]
      exact ih (h.new hseen)

end FirstSeen

/-- Whether a handler declares an extension, which is given in lower case. -/
def Registered.declares (entry : Registered) (extension : String) : Bool :=
  entry.handler.descriptor.extensions.any (Registry.fold · = extension)

namespace Registry

/-- The assignments that a handler makes when it is registered, in order. -/
def assignmentsOf (entry : Registered) : List (String × Registered) :=
  entry.handler.descriptor.extensions.map fun extension => (fold extension, entry)

/-- The assignments that a history of registrations makes, in order. -/
def assignments (history : List Registered) : List (String × Registered) :=
  history.flatMap assignmentsOf

/-- The handler that an extension was last assigned to. -/
def holder? (made : List (String × Registered)) (extension : String) : Option Registered :=
  (made.reverse.find? (·.1 = extension)).map (·.2)

/-- The event of an assignment that takes an extension from another handler. -/
def displaced? (before : List (String × Registered)) (extension : String) (entry : Registered) :
    Option Replacement :=
  ((holder? before extension).filter (·.serial ≠ entry.serial)).map fun old =>
    { extension, previous := old.handler.languageId, current := entry.handler.languageId }

/-- The events of assignments that are made one after another, after those `before`. -/
def displacements (before : List (String × Registered)) :
    List (String × Registered) → List Replacement
  | [] => []
  | (extension, entry) :: later =>
    (displaced? before extension entry).toList
      ++ displacements (before ++ [(extension, entry)]) later

/-- The registry that a history of registrations leads to. -/
def ofHistory (history : List Registered) : Registry := (({} : Registry).registerAll history).1

/-- The events that a history of registrations makes. -/
def eventsOf (history : List Registered) : List Replacement :=
  (({} : Registry).registerAll history).2

/-! ## Assignments -/

theorem holder?_append (made later : List (String × Registered)) (extension : String) :
    holder? (made ++ later) extension = (holder? later extension).or (holder? made extension) := by
  simp only [holder?, List.reverse_append, List.find?_append]
  cases later.reverse.find? (·.1 = extension) <;> rfl

theorem holder?_concat (made : List (String × Registered)) (key extension : String)
    (entry : Registered) :
    holder? (made ++ [(key, entry)]) extension
      = if extension = key then some entry else holder? made extension := by
  rw [holder?_append]
  by_cases h : extension = key
  · simp [holder?, h]
  · simp [holder?, h, Ne.symm h]

theorem displacements_append (before made later : List (String × Registered)) :
    displacements before (made ++ later)
      = displacements before made ++ displacements (before ++ made) later := by
  induction made generalizing before with
  | nil => simp [displacements]
  | cons first made ih =>
    obtain ⟨extension, entry⟩ := first
    rw [List.cons_append, displacements, ih, displacements, List.append_assoc, List.append_assoc]
    rfl

theorem keys_assign (key : String) (entry : Registered) (table : List (String × Registered)) :
    (assign key entry table).map (·.1)
      = if key ∈ table.map (·.1) then table.map (·.1) else table.map (·.1) ++ [key] := by
  induction table with
  | nil => rfl
  | cons row rest ih =>
    obtain ⟨old, held⟩ := row
    rw [assign]
    by_cases h : old = key
    · simp [h]
    · rw [if_neg h, List.map_cons, ih]
      simp only [List.map_cons, List.mem_cons, Ne.symm h, false_or]
      split_ifs <;> rfl

/-- A table holds the last handler of each extension and lists the extensions as they first came
up. -/
structure Tabulates (table made : List (String × Registered)) : Prop where
  lookup : ∀ extension, lookup table extension = holder? made extension
  keys : FirstSeen (made.map (·.1)) (table.map (·.1))

theorem Tabulates.assign {table made : List (String × Registered)} (h : Tabulates table made)
    (key : String) (entry : Registered) :
    Tabulates (assign key entry table) (made ++ [(key, entry)]) := by
  constructor
  · intro extension
    rw [lookup_assign, holder?_concat, h.lookup]
  · rw [keys_assign, List.map_append, List.map_singleton]
    split_ifs with hlisted
    · exact h.keys.again (h.keys.mem.1 hlisted)
    · exact h.keys.new (mt h.keys.mem.2 hlisted)

theorem Tabulates.replacement?_eq {table made : List (String × Registered)}
    (h : Tabulates table made) (key : String) (entry : Registered) :
    replacement? table key entry = displaced? made key entry := by
  rw [replacement?, h.lookup, displaced?]
  cases holder? made key with
  | none => rfl
  | some old =>
    rw [Option.filter_some]
    by_cases hsame : old.serial = entry.serial <;> simp [hsame]

theorem Tabulates.assignAll {table made : List (String × Registered)} (h : Tabulates table made)
    (entry : Registered) (extensions : List String) :
    Tabulates (assignAll entry extensions table).1
        (made ++ extensions.map fun extension => (fold extension, entry))
      ∧ (assignAll entry extensions table).2
        = displacements made (extensions.map fun extension => (fold extension, entry)) := by
  induction extensions generalizing table made with
  | nil => exact ⟨by simpa [Registry.assignAll] using h, rfl⟩
  | cons extension rest ih =>
    obtain ⟨htable, hevents⟩ := ih (h.assign (fold extension) entry)
    rw [List.append_assoc] at htable
    refine ⟨htable, ?_⟩
    rw [List.map_cons, displacements, ← hevents, ← h.replacement?_eq]
    rfl

/-! ## Histories -/

/-- A registry is what a history of registrations makes of the empty one. -/
structure Reflects (registry : Registry) (history : List Registered) : Prop where
  handlers : registry.handlers = history
  table : Tabulates registry.byExtension (assignments history)

theorem Reflects.empty : Reflects {} [] := ⟨rfl, fun _ => rfl, .nil⟩

theorem Reflects.register {registry : Registry} {history : List Registered}
    (h : Reflects registry history) (entry : Registered) :
    Reflects (registry.register entry).1 (history ++ [entry])
      ∧ (registry.register entry).2
        = displacements (assignments history) (assignmentsOf entry) := by
  obtain ⟨htable, hevents⟩ := h.table.assignAll entry entry.handler.descriptor.extensions
  refine ⟨⟨by simp [Registry.register, h.handlers], ?_⟩, hevents⟩
  rw [assignments, List.flatMap_append, List.flatMap_singleton]
  exact htable

theorem Reflects.registerAll {registry : Registry} {history : List Registered}
    (h : Reflects registry history) (later : List Registered) :
    Reflects (registry.registerAll later).1 (history ++ later)
      ∧ (registry.registerAll later).2
        = displacements (assignments history) (assignments later) := by
  induction later generalizing registry history with
  | nil => exact ⟨by simpa [Registry.registerAll] using h, rfl⟩
  | cons entry later ih =>
    obtain ⟨hnext, hfirst⟩ := h.register entry
    obtain ⟨hlast, hlater⟩ := ih hnext
    rw [List.append_assoc] at hlast
    refine ⟨hlast, ?_⟩
    have hmade : assignments (history ++ [entry]) = assignments history ++ assignmentsOf entry := by
      simp [assignments]
    have hall : assignments (entry :: later) = assignmentsOf entry ++ assignments later := rfl
    rw [hall, displacements_append, ← hmade, ← hfirst, ← hlater]
    rfl

theorem reflects_ofHistory (history : List Registered) : Reflects (ofHistory history) history :=
  (Reflects.empty.registerAll history).1

/-! ## Look-ups -/

theorem holder?_assignmentsOf (entry : Registered) (extension : String) :
    holder? (assignmentsOf entry) extension
      = if entry.declares extension then some entry else none := by
  rw [holder?, assignmentsOf, ← List.map_reverse, List.find?_map, Option.map_map,
    Registered.declares]
  split_ifs with h
  · obtain ⟨declared, hmem, hfold⟩ := List.any_eq_true.1 h
    have hsome : (entry.handler.descriptor.extensions.reverse.find? (fold · = extension)).isSome :=
      List.find?_isSome.2 ⟨declared, List.mem_reverse.2 hmem, hfold⟩
    obtain ⟨found, hfound⟩ := Option.isSome_iff_exists.1 hsome
    exact congrArg (Option.map _) hfound
  · have hnone : entry.handler.descriptor.extensions.reverse.find? (fold · = extension) = none := by
      rw [List.find?_eq_none]
      intro declared hmem hfold
      exact h (List.any_eq_true.2 ⟨declared, List.mem_reverse.1 hmem, hfold⟩)
    exact congrArg (Option.map _) hnone

theorem holder?_assignments (history : List Registered) (extension : String) :
    holder? (assignments history) extension = history.reverse.find? (·.declares extension) := by
  induction history using List.reverseRecOn with
  | nil => rfl
  | append_singleton history entry ih =>
    rw [assignments, List.flatMap_append, List.flatMap_singleton, holder?_append,
      holder?_assignmentsOf, ← assignments, ih, List.reverse_append, List.reverse_singleton,
      List.singleton_append, List.find?_cons]
    cases entry.declares extension <;> rfl

theorem handlerForFile_ofHistory (history : List Registered) (path : Text) :
    (ofHistory history).handlerForFile path =
      if FilePath.suffix path = [] then none
      else history.reverse.find? (·.declares (String.ofList (lower (FilePath.suffix path)))) := by
  simp only [handlerForFile, List.isEmpty_iff, Text.lower_eq_nil,
    (reflects_ofHistory history).table.lookup, holder?_assignments]

/-- After any registrations, a file goes to the handler registered last of those that declare its
suffix in any case, a language to the one registered first, both listings have each name once in the
order in which it first came up, and there is one event for each assignment that took an extension
from another handler. -/
theorem answers_follow_history (history : List Registered) :
    (∀ path, (ofHistory history).handlerForFile path =
        if FilePath.suffix path = [] then none
        else history.reverse.find? (·.declares (String.ofList (lower (FilePath.suffix path)))))
      ∧ FirstSeen ((assignments history).map (·.1)) (ofHistory history).extensions
      ∧ (∀ languageId, (ofHistory history).handlerForLanguage languageId
        = history.find? (·.handler.languageId = languageId))
      ∧ FirstSeen (history.map (·.handler.languageId)) (ofHistory history).languageIds
      ∧ eventsOf history = displacements [] (assignments history) := by
  obtain ⟨hhandlers, htable⟩ := reflects_ofHistory history
  refine ⟨handlerForFile_ofHistory history, htable.keys, fun languageId => ?_, ?_,
    (Reflects.empty.registerAll history).2⟩
  · rw [handlerForLanguage, hhandlers]
  · rw [languageIds, hhandlers]
    simpa using FirstSeen.nil.collect (history.map (·.handler.languageId))

end Registry

end SourceLens
