import Mathlib.Tactic.Common
import SourceLens.Text.Basic
import SourceLens.Text.LetterCase

/-!
# Tags in lower-cased text

A tag is looked for in the lower-case form of a text. It stands there where it stands in the text, its
ASCII letters in any case, but every dotted capital I in front moves it on by one place
(`find?_lower`, `findLast?_lower`).
-/

namespace SourceLens.Text

/-! ## Where a text occurs -/

/-- The offsets at which `needle` occurs, in order. -/
def places (needle : Text) : Text → List Nat
  | [] => if needle = [] then [0] else []
  | c :: rest =>
    (if needle <+: c :: rest then [0] else []) ++ (places needle rest).map (· + 1)

theorem find?_eq_head? (needle text : Text) : find? needle text = (places needle text).head? := by
  induction text with
  | nil => cases needle <;> rfl
  | cons c rest ih =>
    simp only [find?, places, List.isPrefixOf_iff_prefix, ih, List.head?_append, List.head?_map]
    split_ifs <;> simp

theorem findLast?_eq_getLast? (needle text : Text) :
    findLast? needle text = (places needle text).getLast? := by
  induction text with
  | nil => cases needle <;> rfl
  | cons c rest ih =>
    simp only [findLast?, places, List.isPrefixOf_iff_prefix, ih, List.getLast?_append,
      List.getLast?_map]
    cases (places needle rest).getLast? with
    | none => split_ifs <;> rfl
    | some i => rfl

theorem mem_places {needle text : Text} {i : Nat} :
    i ∈ places needle text ↔ i ≤ text.length ∧ needle <+: text.drop i := by
  induction text generalizing i with
  | nil => cases needle <;> simp [places]
  | cons c rest ih =>
    rw [places, List.mem_append, List.mem_map]
    cases i with
    | zero => simp
    | succ i => simp [ih]

/-- An ASCII character that is the lower-case form of ASCII characters only. -/
def IsTagChar (t : Char) : Prop := 0 < t.toNat ∧ t.toNat < 128 ∧ t ≠ 'k' ∧ t ≠ 'i'

instance (t : Char) : Decidable (IsTagChar t) := inferInstanceAs (Decidable (_ ∧ _))

/-! ## One character -/

theorem image_of_le {n : Nat} (hn : 128 ≤ n) :
    128 ≤ lowerTable.image n ∨ lowerTable.image n = 'k'.toNat := by
  -- only the row of that sign leads back into ASCII
  have hrows : ∀ row ∈ lowerTable,
      row.2.1 < 128 ∨ 128 ≤ row.2.2.2 ∨ (row.1 = row.2.1 ∧ row.2.2.2 = 'k'.toNat) := by
    decide +kernel
  generalize lowerTable = table at hrows
  induction table with
  | nil => exact .inl hn
  | cons row table ih =>
    obtain ⟨lo, hi, step, target⟩ := row
    obtain ⟨hrow, hrows⟩ := List.forall_mem_cons.1 hrows
    simp only at hrow
    rw [CaseTable.image]
    split_ifs
    · exact .inl hn
    · rcases hrow with hrow | hrow | ⟨hone, htarget⟩
      · omega
      · omega
      · right
        omega
    · exact ih hrows

theorem image_of_lt {n : Nat} (hn : n < 128) :
    Char.ofNat (lowerTable.image n) = (Char.ofNat n).toLower := by
  revert n
  decide

theorem toLower_of_le {c : Char} (hc : 128 ≤ c.toNat) : c.toLower = c := by
  refine dif_neg ?_
  rintro ⟨-, hhigh⟩
  have hle : c.toNat ≤ 'Z'.toNat := hhigh
  have hlast : 'Z'.toNat = 90 := rfl
  omega

theorem eq_of_toLower_eq {c t : Char} (h : c.toLower = t) (ht : t.toNat < 'A'.toNat) : c = t := by
  change dite _ _ _ = t at h
  split_ifs at h with hupper
  · have hlow : 'A'.toNat ≤ c.toNat := hupper.1
    have hhigh : c.toNat ≤ 'Z'.toNat := hupper.2
    have hlast : 'Z'.toNat = 90 := rfl
    have hsum : (c.val + ('a'.val - 'A'.val)).toNat = c.toNat + 32 := by
      rw [UInt32.toNat_add]
      exact Nat.mod_eq_of_lt (show c.toNat + 32 < 2 ^ 32 by omega)
    have hval : t.toNat = (c.val + ('a'.val - 'A'.val)).toNat := by rw [← h]; rfl
    omega
  · exact h

theorem ofNat_ne {n : Nat} {t : Char} (hn : 128 ≤ n) (hpos : 0 < t.toNat) (hascii : t.toNat < 128) :
    Char.ofNat n ≠ t := by
  rintro rfl
  by_cases hvalid : n.isValidChar
  · have hsame : (Char.ofNat n).toNat = n := by
      rw [Char.ofNat, dif_pos hvalid]
      rfl
    omega
  · rw [Char.ofNat, dif_neg hvalid] at hpos
    exact absurd hpos (by decide)

theorem ofNat_image_eq_iff {t : Char} (ht : IsTagChar t) (c : Char) :
    Char.ofNat (lowerTable.image c.toNat) = t ↔ c.toLower = t := by
  obtain ⟨hpos, hascii, hkelvin, -⟩ := ht
  by_cases hc : c.toNat < 128
  · rw [image_of_lt hc, Char.ofNat_toNat]
  · have hhigh : 128 ≤ c.toNat := by omega
    rw [toLower_of_le hhigh]
    constructor
    · intro h
      rcases image_of_le hhigh with himage | himage
      · exact absurd h (ofNat_ne himage hpos hascii)
      · rw [himage, Char.ofNat_toNat] at h
        exact absurd h.symm hkelvin
    · rintro rfl
      omega

theorem IsTagChar.ne_of_le {t d : Char} (ht : IsTagChar t) (hd : 128 ≤ d.toNat) : d ≠ t := by
  rintro rfl
  exact absurd ht.2.1 (by omega)

theorem lowerChar_eq {t : Char} (ht : IsTagChar t) {c : Char} (hc : c ≠ dottedCapitalI)
    (before after : List Char) :
    ∃ d, lowerChar before c after = [d] ∧ (d = t ↔ c.toLower = t) := by
  rw [lowerChar, if_neg hc]
  by_cases hsigma : c = capitalSigma
  · have hkept : c.toLower ≠ t := by
      rw [hsigma, toLower_of_le (by decide)]
      exact ht.ne_of_le (by decide)
    rw [if_pos hsigma]
    split_ifs
    · exact ⟨_, rfl, iff_of_false (ht.ne_of_le (by decide)) hkept⟩
    · exact ⟨_, rfl, iff_of_false (ht.ne_of_le (by decide)) hkept⟩
  · exact ⟨_, if_neg hsigma, ofNat_image_eq_iff ht c⟩

/-! ## Tags -/

theorem not_prefix_dotted {t : Char} (ht : IsTagChar t) (tag rest : Text) :
    ¬t :: tag <+: 'i' :: '\u0307' :: rest ∧ ¬t :: tag <+: '\u0307' :: rest
      ∧ ¬t :: tag <+: dottedCapitalI.toLower :: rest := by
  refine ⟨fun h => ?_, fun h => ?_, fun h => ?_⟩
  · exact ht.2.2.2 (List.cons_prefix_cons.1 h).1
  · exact ht.ne_of_le (by decide) (List.cons_prefix_cons.1 h).1.symm
  · rw [toLower_of_le (by decide)] at h
    exact ht.ne_of_le (by decide) (List.cons_prefix_cons.1 h).1.symm

theorem lowerFrom_dotted (before rest : Text) :
    lowerFrom before (dottedCapitalI :: rest)
      = 'i' :: '\u0307' :: lowerFrom (dottedCapitalI :: before) rest := rfl

/-- A tag stands in front of the lower-case form exactly if it stands in front of the text, in any
case. -/
theorem prefix_lowerFrom {tag : Text} (htag : ∀ t ∈ tag, IsTagChar t) :
    ∀ (before text : Text), tag <+: lowerFrom before text ↔ tag <+: text.map Char.toLower := by
  induction tag with
  | nil => simp
  | cons t tag ih =>
    intro before text
    obtain ⟨ht, htag⟩ := List.forall_mem_cons.1 htag
    cases text with
    | nil => simp [lowerFrom]
    | cons c rest =>
      by_cases hdotted : c = dottedCapitalI
      · subst hdotted
        rw [lowerFrom_dotted, List.map_cons]
        exact iff_of_false (not_prefix_dotted ht tag _).1 (not_prefix_dotted ht tag _).2.2
      · obtain ⟨d, hlower, hd⟩ := lowerChar_eq ht hdotted before rest
        rw [lowerFrom, hlower, List.singleton_append, List.map_cons, List.cons_prefix_cons,
          List.cons_prefix_cons, ih htag, @eq_comm _ t d, hd, @eq_comm _ t]

/-- Where a place of the text lies in its lower-case form. -/
def lowerOffset (text : Text) (i : Nat) : Nat := i + (text.take i).count dottedCapitalI

theorem lowerOffset_dotted (rest : Text) (i : Nat) :
    lowerOffset (dottedCapitalI :: rest) (i + 1) = lowerOffset rest i + 2 := by
  simp [lowerOffset]
  omega

theorem lowerOffset_cons {c : Char} (hc : c ≠ dottedCapitalI) (rest : Text) (i : Nat) :
    lowerOffset (c :: rest) (i + 1) = lowerOffset rest i + 1 := by
  simp [lowerOffset, List.count_cons_of_ne hc]
  omega

theorem places_lowerFrom {t : Char} {tag : Text} (htag : ∀ c ∈ t :: tag, IsTagChar c)
    (text : Text) :
    ∀ before, places (t :: tag) (lowerFrom before text)
      = (places (t :: tag) (text.map Char.toLower)).map (lowerOffset text) := by
  induction text with
  | nil => exact fun _ => rfl
  | cons c rest ih =>
    intro before
    obtain ⟨ht, -⟩ := List.forall_mem_cons.1 htag
    have hfront := prefix_lowerFrom htag before (c :: rest)
    by_cases hdotted : c = dottedCapitalI
    · -- two characters for one, and the tag starts at neither
      subst hdotted
      obtain ⟨hfirst, hsecond, -⟩ :=
        not_prefix_dotted ht tag (lowerFrom (dottedCapitalI :: before) rest)
      have hplain := (not_prefix_dotted ht tag (rest.map Char.toLower)).2.2
      rw [lowerFrom_dotted, List.map_cons, places, if_neg hfirst, places, if_neg hsecond, places,
        if_neg hplain, ih]
      simp only [List.nil_append, List.map_map]
      exact List.map_congr_left fun i _ => (lowerOffset_dotted rest i).symm
    · obtain ⟨d, hlower, -⟩ := lowerChar_eq ht hdotted before rest
      rw [lowerFrom, hlower, List.singleton_append, List.map_cons] at hfront ⊢
      rw [places, places, List.map_append, ih]
      congr 1
      · simp only [hfront]
        split_ifs <;> rfl
      · simp only [List.map_map]
        exact List.map_congr_left fun i _ => (lowerOffset_cons hdotted rest i).symm

section

variable {tag : Text} (hne : tag ≠ []) (htag : ∀ c ∈ tag, IsTagChar c) (text : Text)

include hne htag

theorem places_lower :
    places tag (lower text) = (places tag (text.map Char.toLower)).map (lowerOffset text) := by
  obtain ⟨t, tag, rfl⟩ := List.exists_cons_of_ne_nil hne
  exact places_lowerFrom htag text []

theorem find?_lower :
    find? tag (lower text) = (find? tag (text.map Char.toLower)).map (lowerOffset text) := by
  rw [find?_eq_head?, places_lower hne htag, List.head?_map, find?_eq_head?]

theorem findLast?_lower :
    findLast? tag (lower text)
      = (findLast? tag (text.map Char.toLower)).map (lowerOffset text) := by
  rw [findLast?_eq_getLast?, places_lower hne htag, List.getLast?_map, findLast?_eq_getLast?]

end

end SourceLens.Text
