import SourceLens.Proofs.Pattern.Evaluation

/-!
# Searching piece by piece

Some patterns match exactly where one of their pieces starts and take up that piece, whatever stands
around it (`Finds`). A search with such a pattern cuts a text into pieces and the characters between
them. What it finds and what replacing makes of the text are then read off a front of the text and
the rest, with no state carried along (`matchesFrom_piece`, `replaceAll_piece` and their kin).
-/

namespace SourceLens.Pattern

/-- Whether a piece stands at the start of a text. -/
def Ahead (piece : Text → Prop) (text : Text) : Prop := ∃ x rest, text = x ++ rest ∧ piece x

/-- A pattern that takes up a piece wherever one starts, and matches nowhere else. -/
structure Finds (p : Pattern) (piece : Text → Prop) : Prop where
  ne_nil : ∀ {x : Text}, piece x → x ≠ []
  found : ∀ {x : Text}, piece x → ∀ (rest : Text) (before : Option Char) (offset : Nat),
    p.matchSome before offset (x ++ rest) = some ⟨offset, x, []⟩
  missed : ∀ {text : Text}, ¬Ahead piece text → ∀ (before : Option Char) (offset : Nat),
    p.matchSome before offset text = none

theorem piece_induction {piece : Text → Prop} (hne : ∀ {x : Text}, piece x → x ≠ [])
    {motive : Text → Prop} (nil : motive [])
    (take : ∀ x rest, piece x → motive rest → motive (x ++ rest))
    (pass : ∀ c rest, ¬Ahead piece (c :: rest) → motive rest → motive (c :: rest)) (text : Text) :
    motive text := by
  induction hn : text.length using Nat.strongRecOn generalizing text with
  | _ n ih =>
    by_cases h : Ahead piece text
    · obtain ⟨x, rest, rfl, hx⟩ := h
      have hpos := List.length_pos_iff.2 (hne hx)
      rw [List.length_append] at hn
      exact take x rest hx (ih rest.length (by omega) rest rfl)
    · cases text with
      | nil => exact nil
      | cons c rest =>
        rw [List.length_cons] at hn
        exact pass c rest h (ih rest.length (by omega) rest rfl)

/-- The matches in a text that starts at an offset. -/
def matchesFrom (p : Pattern) (offset : Nat) (text : Text) : List Match :=
  p.findAllFrom 0 none offset text

namespace Finds

variable {p : Pattern} {piece : Text → Prop} {x rest : Text} {c : Char}

theorem findAllFrom_eq (hp : Finds p piece) (text : Text) :
    ∀ (skip : Nat) (before : Option Char) (offset : Nat),
      p.findAllFrom skip before offset text = p.matchesFrom (offset + skip) (text.drop skip) := by
  induction text with
  | nil => simp [findAllFrom, matchesFrom]
  | cons c rest ih =>
    intro skip before offset
    cases skip with
    | succ skip =>
      have hshift : offset + 1 + skip = offset + (skip + 1) := by omega
      rw [findAllFrom, ih, hshift]
      rfl
    | zero =>
      rw [matchesFrom, List.drop_zero, Nat.add_zero, findAllFrom, findAllFrom]
      by_cases h : Ahead piece (c :: rest)
      · obtain ⟨x, after, htext, hx⟩ := h
        rw [htext, hp.found hx, hp.found hx]
      · rw [hp.missed h, hp.missed h]

theorem matchesFrom_piece (hp : Finds p piece) (hx : piece x) (offset : Nat) (rest : Text) :
    p.matchesFrom offset (x ++ rest)
      = ⟨offset, x, []⟩ :: p.matchesFrom (offset + x.length) rest := by
  have hfound := hp.found hx rest none offset
  obtain ⟨c, tail, rfl⟩ := List.exists_cons_of_ne_nil (hp.ne_nil hx)
  have hshift : offset + 1 + tail.length = offset + (tail.length + 1) := by omega
  rw [matchesFrom, List.cons_append, findAllFrom, ← List.cons_append, hfound]
  simp only [hp.findAllFrom_eq, List.length_cons, Nat.add_sub_cancel, List.drop_left, hshift]

theorem matchesFrom_char (hp : Finds p piece) (h : ¬Ahead piece (c :: rest)) (offset : Nat) :
    p.matchesFrom offset (c :: rest) = p.matchesFrom (offset + 1) rest := by
  rw [matchesFrom, findAllFrom, hp.missed h]
  exact hp.findAllFrom_eq rest 0 (some c) (offset + 1)

theorem matchesFrom_skip (hp : Finds p piece)
    (hx : ∀ c ∈ x, ∀ rest, ¬Ahead piece (c :: rest)) :
    ∀ (offset : Nat) (rest : Text),
      p.matchesFrom offset (x ++ rest) = p.matchesFrom (offset + x.length) rest := by
  induction x with
  | nil => exact fun _ _ => rfl
  | cons c x ih =>
    intro offset rest
    obtain ⟨hc, hx⟩ := List.forall_mem_cons.1 hx
    have hshift : offset + 1 + x.length = offset + (c :: x).length := by
      rw [List.length_cons]
      omega
    rw [List.cons_append, hp.matchesFrom_char (hc _), ih hx, hshift]

theorem mem_matchesFrom (hp : Finds p piece) {text : Text} {found : Match} :
    ∀ {offset : Nat}, found ∈ p.matchesFrom offset text →
      ∃ front rest, text = front ++ (found.text ++ rest) ∧ found.start = offset + front.length
        ∧ piece found.text := by
  induction text using piece_induction hp.ne_nil with
  | nil => simp [matchesFrom, findAllFrom]
  | take x rest hx ih =>
    intro offset h
    rw [hp.matchesFrom_piece hx] at h
    rcases List.mem_cons.1 h with rfl | h
    · exact ⟨[], rest, rfl, rfl, hx⟩
    · obtain ⟨front, after, rfl, hstart, hfound⟩ := ih h
      refine ⟨x ++ front, after, (List.append_assoc ..).symm, ?_, hfound⟩
      rw [hstart, List.length_append, Nat.add_assoc]
  | pass c rest hc ih =>
    intro offset h
    rw [hp.matchesFrom_char hc] at h
    obtain ⟨front, after, rfl, hstart, hfound⟩ := ih h
    refine ⟨c :: front, after, rfl, ?_, hfound⟩
    rw [hstart, List.length_cons]
    omega

theorem replaceFrom_eq (hp : Finds p piece) (image : Text → Text) (text : Text) :
    ∀ (skip : Nat) (before : Option Char) (offset : Nat),
      p.replaceFrom image skip before offset text = p.replaceAll image (text.drop skip) := by
  induction text with
  | nil => simp [replaceFrom, replaceAll]
  | cons c rest ih =>
    intro skip before offset
    cases skip with
    | succ skip => exact ih skip (some c) (offset + 1)
    | zero =>
      rw [replaceAll, List.drop_zero, replaceFrom, replaceFrom]
      by_cases h : Ahead piece (c :: rest)
      · obtain ⟨x, after, htext, hx⟩ := h
        rw [htext, hp.found hx, hp.found hx]
        simp only [ih]
      · rw [hp.missed h, hp.missed h]
        simp only [ih]

theorem replaceAll_piece (hp : Finds p piece) (hx : piece x) (image : Text → Text) (rest : Text) :
    p.replaceAll image (x ++ rest) = image x ++ p.replaceAll image rest := by
  have hfound := hp.found hx rest none 0
  obtain ⟨c, tail, rfl⟩ := List.exists_cons_of_ne_nil (hp.ne_nil hx)
  rw [replaceAll, List.cons_append, replaceFrom, ← List.cons_append, hfound]
  simp only [hp.replaceFrom_eq, List.length_cons, Nat.add_sub_cancel, List.drop_left]

theorem replaceAll_char (hp : Finds p piece) (h : ¬Ahead piece (c :: rest)) (image : Text → Text) :
    p.replaceAll image (c :: rest) = c :: p.replaceAll image rest := by
  rw [replaceAll, replaceFrom, hp.missed h]
  simp only [hp.replaceFrom_eq, List.drop_zero]

theorem replaceAll_skip (hp : Finds p piece) (hx : ∀ c ∈ x, ∀ rest, ¬Ahead piece (c :: rest))
    (image : Text → Text) (rest : Text) :
    p.replaceAll image (x ++ rest) = x ++ p.replaceAll image rest := by
  induction x with
  | nil => rfl
  | cons c x ih =>
    obtain ⟨hc, hx⟩ := List.forall_mem_cons.1 hx
    rw [List.cons_append, hp.replaceAll_char (hc _), ih hx, List.cons_append]

end Finds

end SourceLens.Pattern
