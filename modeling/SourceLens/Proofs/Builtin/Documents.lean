import SourceLens.Builtin.Packages
import SourceLens.Proofs.Data.Tidy

/-!
# Mappings as they are read

However often a document repeats a key, the mapping that is read holds it once, and so do the
mappings under its keys. This holds of both formats that settings are written in: every mapping
that is read was made by `Entries.ofList`, those under a merge key and those inside lists too.
-/

namespace SourceLens

/-! ## Documents read level by level -/

namespace Builtin.Yaml

open Entries (PartsDistinct)

namespace Reading

variable {α β : Type}

theorem deeper_eq_ok {reading : Reading α} {x : α} : deeper reading = .ok x ↔ reading = .ok x := by
  cases reading <;> simp [deeper]

theorem both_eq_ok {a : Reading α} {b : Reading β} {pair : α × β} :
    both a b = .ok pair ↔ a = .ok pair.1 ∧ b = .ok pair.2 := by
  obtain ⟨x, y⟩ := pair
  cases a <;> cases b <;> simp [both]

theorem mem_of_all {readings : List (Reading α)} {xs : List α} (h : all readings = .ok xs) {x : α}
    (hx : x ∈ xs) : .ok x ∈ readings := by
  induction readings generalizing xs with
  | nil =>
    rw [all] at h
    cases h
    simp at hx
  | cons first rest ih =>
    rw [all, map_eq_ok] at h
    obtain ⟨⟨y, ys⟩, hboth, rfl⟩ := h
    obtain ⟨hfirst, hrest⟩ := both_eq_ok.1 hboth
    rcases List.mem_cons.1 hx with rfl | hx
    · exact hfirst ▸ List.mem_cons_self
    · exact List.mem_cons_of_mem _ (ih hrest hx)

end Reading

theorem mapping_eq_ok {merged own : List (Reading Entries)} {entries : Entries} :
    mapping merged own = .ok entries
      ↔ ∃ parts, Reading.all (merged ++ own) = .ok parts ∧ .ofList parts.flatten = entries := by
  rw [mapping, map_eq_ok]

theorem distinct_mapping {merged own : List (Reading Entries)} {entries : Entries}
    (h : mapping merged own = .ok entries) : entries.Distinct := by
  obtain ⟨parts, -, rfl⟩ := mapping_eq_ok.1 h
  exact Entries.distinct_ofList _

theorem partsDistinct_mapping {merged own : List (Reading Entries)} {entries : Entries}
    (hmerged : ∀ e, .ok e ∈ merged → PartsDistinct e) (hown : ∀ e, .ok e ∈ own → PartsDistinct e)
    (h : mapping merged own = .ok entries) : PartsDistinct entries := by
  obtain ⟨parts, hparts, rfl⟩ := mapping_eq_ok.1 h
  refine (Entries.partsDistinct_flatten fun part hpart => ?_).ofList
  rcases List.mem_append.1 (Reading.mem_of_all hparts hpart) with hmem | hmem
  · exact hmerged part hmem
  · exact hown part hmem

theorem mapping_of_value {node : Node} {entries : Entries} (h : node.value = .ok (.map entries)) :
    ∃ pairs, mapping (Node.mergedParts pairs) (Node.ownParts pairs) = .ok entries := by
  cases node with
  | scalar text plain => simp [Node.value, map_eq_ok] at h
  | list items => simp [Node.value, Reading.deeper_eq_ok, map_eq_ok] at h
  | map pairs =>
    rw [Node.value, Reading.deeper_eq_ok] at h
    split_ifs at h
    · obtain ⟨found, hfound, hmap⟩ := map_eq_ok.1 h
      cases hmap
      exact ⟨pairs, hfound⟩
    · simp [Reading.malformed] at h

theorem partsDistinct_ownParts (pairs : List (Node × Node)) :
    ∀ e, .ok e ∈ Node.ownParts pairs → PartsDistinct e := by
  induction pairs with
  | nil => simp [Node.ownParts]
  | cons pair rest ih =>
    intro e he
    rw [Node.ownParts] at he
    rcases List.mem_cons.1 he with he | he
    · rw [Node.ownPart] at he
      split_ifs at he
      · cases he
        exact Entries.partsDistinct_nil
      · obtain ⟨entry, hentry, rfl⟩ := map_eq_ok.1 he.symm
        intro other hother part hpart
        rw [List.mem_singleton.1 hother] at hpart
        obtain ⟨inner, hinner⟩ := mapping_of_value (hpart ▸ (Reading.both_eq_ok.1 hentry).2)
        exact distinct_mapping hinner
    · exact ih e he

-- Only what is merged in has to be followed down: the values of own entries are finished mappings.
mutual

theorem partsDistinct_mergeEntries : ∀ (node : Node) {e : Entries},
    node.mergeEntries = .ok e → PartsDistinct e
  | .map pairs, _, h => by
    rw [Node.mergeEntries] at h
    exact partsDistinct_mapping (partsDistinct_mergedParts pairs) (partsDistinct_ownParts pairs) h
  | .list items, _, h => by
    rw [Node.mergeEntries] at h
    obtain ⟨parts, hparts, rfl⟩ := map_eq_ok.1 h
    refine Entries.partsDistinct_flatten fun part hpart => ?_
    have hmem := List.mem_reverse.1 (Reading.mem_of_all hparts hpart)
    exact partsDistinct_entriesOfAll items part hmem
  | .scalar text plain, _, h => by simp [Node.mergeEntries, Reading.malformed] at h

theorem partsDistinct_entriesOfAll : ∀ (items : List Node),
    ∀ e, .ok e ∈ Node.entriesOfAll items → PartsDistinct e
  | [], _, h => by simp [Node.entriesOfAll] at h
  | item :: rest, e, h => by
    rw [Node.entriesOfAll] at h
    rcases List.mem_cons.1 h with h | h
    · exact partsDistinct_entries item h.symm
    · exact partsDistinct_entriesOfAll rest e h

theorem partsDistinct_entries : ∀ (node : Node) {e : Entries},
    node.entries = .ok e → PartsDistinct e
  | .map pairs, _, h => by
    rw [Node.entries] at h
    exact partsDistinct_mapping (partsDistinct_mergedParts pairs) (partsDistinct_ownParts pairs) h
  | .list items, _, h => by simp [Node.entries, Reading.malformed] at h
  | .scalar text plain, _, h => by simp [Node.entries, Reading.malformed] at h

theorem partsDistinct_mergedParts : ∀ (pairs : List (Node × Node)),
    ∀ e, .ok e ∈ Node.mergedParts pairs → PartsDistinct e
  | [], _, h => by simp [Node.mergedParts] at h
  | (key, value) :: rest, e, h => by
    rw [Node.mergedParts] at h
    rcases List.mem_cons.1 h with h | h
    · rw [Node.mergedPart] at h
      split_ifs at h
      · exact partsDistinct_mergeEntries value h.symm
      · cases h
        exact Entries.partsDistinct_nil
    · exact partsDistinct_mergedParts rest e h

end

theorem tidy_of_value {node : Node} {entries : Entries} (h : node.value = .ok (.map entries)) :
    entries.Tidy := by
  obtain ⟨pairs, hpairs⟩ := mapping_of_value h
  exact ⟨distinct_mapping hpairs, partsDistinct_mapping (partsDistinct_mergedParts pairs)
    (partsDistinct_ownParts pairs) hpairs⟩

theorem tidy_read {document : Text} {entries : Entries} (h : read document = .ok (.map entries)) :
    entries.Tidy := by
  rw [read] at h
  cases hnode : (tokens? document).bind node? with
  | none => simp [hnode] at h
  | some node =>
    rw [hnode] at h
    exact tidy_of_value (mapError_eq_ok.1 h)

end Builtin.Yaml

/-! ## Documents that a variable holds -/

namespace Builtin.Json

theorem distinct_readValue {fuel : Nat} {text rest : Text} {entries : Entries}
    (h : readValue fuel text = some (.map entries, rest)) : entries.Distinct := by
  cases fuel with
  | zero => simp [readValue] at h
  | succ fuel =>
    rw [readValue] at h
    split at h
    · simp [Value.text] at h
    · split at h <;> simp at h
    · split at h
      · obtain ⟨rfl, -⟩ := by simpa using h
        exact Entries.distinct_nil
      · obtain ⟨members, -, rfl⟩ := by simpa using h
        exact Entries.distinct_ofList _
    · simp at h

theorem distinct_read? {text : Text} {entries : Entries} (h : read? text = some (.map entries)) :
    entries.Distinct := by
  rw [read?] at h
  split at h
  · rename_i value rest hvalue
    split_ifs at h
    cases h
    exact distinct_readValue hvalue
  · simp at h

end Builtin.Json

end SourceLens
