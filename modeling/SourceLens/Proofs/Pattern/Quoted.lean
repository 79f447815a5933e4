import Mathlib.Tactic.Common
import SourceLens.Pattern.Search

/-!
# Quoted specifiers

A pattern that reads a quoted specifier behind a head, such as the name of an import. What it reads
at a place is settled by the next two quotes (`Reads.append`, `Reads.cut`). So what it finds in two
joined texts is what it finds in each, unless a reading crosses the border (`specifiers_append`), and
appending a text takes nothing away (`specifiers_prefix`).
-/

namespace SourceLens.Pattern

/-- A text starts with a head and a quoted specifier, and goes on with `rest`. -/
inductive Reads (head : Text → Prop) : Text → Text → Text → Prop
  | intro {front spec rest : Text} {q r : Char} : head front → isQuote q = true → spec ≠ [] →
      (∀ c ∈ spec, isQuote c = false) → isQuote r = true →
      Reads head (front ++ q :: (spec ++ r :: rest)) spec rest

/-- A pattern that reads the specifiers behind heads and remembers each in group 1. It may take up
more text behind the closing quote, in which no head starts. -/
structure ReadsBehind (head : Text → Prop) (p : Pattern) : Prop where
  sign : ∀ {front}, head front → ∃ more, front = '@' :: more
  bare : ∀ {front}, head front → ∀ c ∈ front, isQuote c = false
  found : ∀ {text spec rest}, Reads head text spec rest → ∃ taken trail after,
    text = taken ++ after ∧ taken ≠ [] ∧ rest = trail ++ after ∧ '@' ∉ trail
      ∧ ∀ before offset, p.matchAt before offset text = some ⟨offset, taken, [(1, spec)]⟩
  none : ∀ {text}, (∀ spec rest, ¬Reads head text spec rest) →
    ∀ before offset, p.matchAt before offset text = none

/-- The specifiers that a pattern finds in a text, in order. -/
def specifiers (p : Pattern) (text : Text) : List Text := (p.findAll text).map (·.group 1)

/-! ## The next two quotes -/

theorem countP_isQuote_eq_zero {text : Text} :
    text.countP isQuote = 0 ↔ ∀ c ∈ text, isQuote c = false := by
  simp [List.countP_eq_zero]

theorem split_before_quote {x y front rest : Text} {q : Char} (h : x ++ y = front ++ q :: rest) :
    (∃ more, x = front ++ q :: more ∧ more ++ y = rest) ∨ x <+: front := by
  rcases List.append_eq_append_iff.1 h with ⟨mid, rfl, -⟩ | ⟨mid, rfl, hmid⟩
  · exact .inr (List.prefix_append x mid)
  · cases mid with
    | nil => exact .inr (by simp)
    | cons c more =>
      obtain ⟨rfl, rfl⟩ := List.cons_eq_cons.1 hmid
      exact .inl ⟨more, rfl, rfl⟩

theorem eq_of_first_quote {x x' y y' : Text} {q q' : Char} (h : x ++ q :: y = x' ++ q' :: y')
    (hx : ∀ c ∈ x, isQuote c = false) (hx' : ∀ c ∈ x', isQuote c = false)
    (hq : isQuote q = true) (hq' : isQuote q' = true) : x = x' ∧ q = q' ∧ y = y' := by
  have htake {z more : Text} {c : Char} (hz : ∀ c ∈ z, isQuote c = false) (hc : isQuote c = true) :
      (z ++ c :: more).takeWhile (! isQuote ·) = z := by
    rw [List.takeWhile_append_of_pos (by simpa using hz)]
    simp [hc]
  obtain rfl : x = x' := by rw [← htake hx hq, h, htake hx' hq']
  exact ⟨rfl, List.cons.inj (List.append_cancel_left h)⟩

section

variable {head : Text → Prop} {x y spec rest : Text}

theorem Reads.two_le_countP (h : Reads head x spec rest) : 2 ≤ x.countP isQuote := by
  obtain ⟨-, hq, -, -, hr⟩ := h
  simp only [List.countP_append, List.countP_cons, hq, hr, if_true]
  omega

theorem Reads.append (h : Reads head x spec rest) (y : Text) :
    Reads head (x ++ y) spec (rest ++ y) := by
  obtain ⟨hhead, hq, hne, hspec, hr⟩ := h
  simpa using Reads.intro hhead hq hne hspec hr

theorem Reads.cut (hbare : ∀ {front}, head front → ∀ c ∈ front, isQuote c = false)
    (h : Reads head (x ++ y) spec rest) (hx : 2 ≤ x.countP isQuote) :
    ∃ more, Reads head x spec more ∧ more ++ y = rest := by
  generalize htext : x ++ y = text at h
  obtain @⟨front, spec, rest, q, r, hhead, hq, hne, hspec, hr⟩ := h
  have hfront := countP_isQuote_eq_zero.2 (hbare hhead)
  have hnone := countP_isQuote_eq_zero.2 hspec
  rcases split_before_quote htext with ⟨more, rfl, hmore⟩ | hshort
  · rw [List.countP_append, List.countP_cons, hfront, if_pos hq] at hx
    rcases split_before_quote hmore with ⟨more, rfl, hrest⟩ | hshort
    · exact ⟨more, .intro hhead hq hne hspec hr, hrest⟩
    · have hle := hshort.sublist.countP_le (p := isQuote)
      omega
  · have hle := hshort.sublist.countP_le (p := isQuote)
    omega

theorem Reads.head_of_bare (hbare : ∀ {front}, head front → ∀ c ∈ front, isQuote c = false)
    {q : Char} (h : Reads head (x ++ q :: y) spec rest) (hx : ∀ c ∈ x, isQuote c = false)
    (hq : isQuote q = true) : head x := by
  generalize htext : x ++ q :: y = text at h
  obtain @⟨front, _, _, _, _, hhead, hopen, -⟩ := h
  obtain ⟨rfl, -⟩ := eq_of_first_quote htext hx (hbare hhead) hq hopen
  exact hhead

theorem Reads.suffix (h : Reads head x spec rest) : rest <:+ x := by
  obtain @⟨front, spec, rest, q, r, -⟩ := h
  exact ⟨front ++ q :: (spec ++ [r]), by simp⟩

theorem Reads.length_lt (h : Reads head x spec rest) : rest.length < x.length := by
  obtain ⟨-⟩ := h
  simp only [List.length_append, List.length_cons]
  omega

theorem not_reads_of_countP_lt (hx : x.countP isQuote < 2) :
    ∀ spec rest, ¬Reads head x spec rest := by
  intro spec rest h
  have htwo := h.two_le_countP
  omega

/-- A text is read from left to right: at each place a specifier is read, or none is and the place
is passed over. -/
theorem scan_induction (head : Text → Prop) {motive : Text → Prop} (nil : motive [])
    (read : ∀ text spec rest, Reads head text spec rest → motive rest → motive text)
    (skip : ∀ c text, (∀ spec rest, ¬Reads head (c :: text) spec rest) → motive text →
      motive (c :: text)) (text : Text) : motive text := by
  induction hn : text.length using Nat.strongRecOn generalizing text with
  | _ n ih =>
    by_cases h : ∃ spec rest, Reads head text spec rest
    · obtain ⟨spec, rest, h⟩ := h
      exact read text spec rest h (ih _ (hn ▸ h.length_lt) rest rfl)
    · cases text with
      | nil => exact nil
      | cons c text =>
        refine skip c text (fun spec rest hread => h ⟨spec, rest, hread⟩) ?_
        exact ih _ (hn ▸ Nat.lt_succ_self _) text rfl

/-- A reading starts in the first of two texts and needs the second one. -/
def Crosses (head : Text → Prop) (x y : Text) : Prop :=
  ∃ t spec rest, t <:+ x ∧ t ≠ [] ∧ Reads head (t ++ y) spec rest
    ∧ ∀ more, ¬Reads head t spec more

theorem Crosses.of_suffix {x' : Text} (h : x' <:+ x) (hcross : Crosses head x' y) :
    Crosses head x y := by
  obtain ⟨t, spec, rest, ht, hread⟩ := hcross
  exact ⟨t, spec, rest, ht.trans h, hread⟩

end

/-! ## All specifiers of a text -/

namespace ReadsBehind

variable {head : Text → Prop} {p : Pattern} {x y spec rest text : Text}

theorem matchSome_found (hp : ReadsBehind head p) (h : Reads head text spec rest) :
    ∃ taken trail after, text = taken ++ after ∧ taken ≠ [] ∧ rest = trail ++ after ∧ '@' ∉ trail
      ∧ ∀ before offset, p.matchSome before offset text = some ⟨offset, taken, [(1, spec)]⟩ := by
  obtain ⟨taken, trail, after, htext, hne, hrest, htrail, hmatch⟩ := hp.found h
  refine ⟨taken, trail, after, htext, hne, hrest, htrail, fun before offset => ?_⟩
  rw [matchSome, hmatch]
  simp [hne]

theorem matchSome_none (hp : ReadsBehind head p) (h : ∀ spec rest, ¬Reads head text spec rest)
    (before : Option Char) (offset : Nat) : p.matchSome before offset text = .none := by
  rw [matchSome, hp.none h]
  rfl

theorem map_findAllFrom (hp : ReadsBehind head p) (text : Text) :
    ∀ (skip : Nat) (before : Option Char) (offset : Nat),
      (p.findAllFrom skip before offset text).map (·.group 1) = p.specifiers (text.drop skip) := by
  induction text with
  | nil => simp [findAllFrom, specifiers, findAll]
  | cons c rest ih =>
    intro skip before offset
    cases skip with
    | succ skip => exact ih skip (some c) (offset + 1)
    | zero =>
      rw [List.drop_zero, specifiers, findAll, findAllFrom, findAllFrom]
      by_cases h : ∃ spec after, Reads head (c :: rest) spec after
      · obtain ⟨spec, after, h⟩ := h
        obtain ⟨taken, -, -, -, -, -, -, hmatch⟩ := hp.matchSome_found h
        simp only [hmatch, List.map_cons, ih]
        rfl
      · simp only [hp.matchSome_none fun spec after hread => h ⟨spec, after, hread⟩, ih]

theorem specifiers_cons (hp : ReadsBehind head p) {c : Char}
    (h : ∀ spec rest, ¬Reads head (c :: text) spec rest) :
    p.specifiers (c :: text) = p.specifiers text := by
  rw [specifiers, findAll, findAllFrom, hp.matchSome_none h]
  exact hp.map_findAllFrom text 0 (some c) 1

theorem not_reads_of_ne (hp : ReadsBehind head p) {c : Char} (hc : c ≠ '@') :
    ∀ spec rest, ¬Reads head (c :: text) spec rest := by
  intro spec rest h
  generalize hwhole : c :: text = whole at h
  obtain ⟨hhead, -⟩ := h
  obtain ⟨more, rfl⟩ := hp.sign hhead
  exact hc (List.cons_eq_cons.1 hwhole).1

theorem crosses (hp : ReadsBehind head p) (h : Crosses head x y) :
    ∃ t spec rest, t <:+ x ∧ t.head? = some '@' ∧ t.countP isQuote < 2
      ∧ Reads head (t ++ y) spec rest := by
  obtain ⟨t, spec, rest, ht, hne, hread, hnot⟩ := h
  obtain ⟨c, t, rfl⟩ := List.exists_cons_of_ne_nil hne
  refine ⟨c :: t, spec, rest, ht, ?_, ?_, hread⟩
  · by_contra hc
    exact hp.not_reads_of_ne (mt (congrArg some) hc) spec rest hread
  · by_contra htwo
    obtain ⟨more, hshort, -⟩ := hread.cut hp.bare (by omega)
    exact hnot more hshort

theorem specifiers_skip (hp : ReadsBehind head p) (hx : '@' ∉ x) (y : Text) :
    p.specifiers (x ++ y) = p.specifiers y := by
  induction x with
  | nil => rfl
  | cons c x ih =>
    obtain ⟨hc, hx⟩ := not_or.1 (mt List.mem_cons.2 hx)
    rw [List.cons_append, hp.specifiers_cons (hp.not_reads_of_ne (Ne.symm hc)), ih hx]

theorem specifiers_read (hp : ReadsBehind head p) (h : Reads head text spec rest) :
    p.specifiers text = spec :: p.specifiers rest := by
  obtain ⟨taken, trail, after, rfl, hne, rfl, htrail, hmatch⟩ := hp.matchSome_found h
  obtain ⟨c, taken, rfl⟩ := List.exists_cons_of_ne_nil hne
  have hrest := hp.map_findAllFrom (taken ++ after) taken.length (some c) 1
  rw [List.drop_left] at hrest
  rw [hp.specifiers_skip htrail, ← hrest, specifiers, findAll, List.cons_append, findAllFrom,
    ← List.cons_append, hmatch]
  rfl

theorem specifiers_eq_nil (hp : ReadsBehind head p) (h : x.countP isQuote < 2) :
    p.specifiers x = [] := by
  induction x with
  | nil => rfl
  | cons c x ih =>
    have hle := (List.suffix_cons c x).sublist.countP_le (p := isQuote)
    rw [hp.specifiers_cons (not_reads_of_countP_lt h)]
    exact ih (by omega)

/-- What is found in a text is found in every text that starts with it. -/
theorem specifiers_prefix (hp : ReadsBehind head p) (x y : Text) :
    p.specifiers x <+: p.specifiers (x ++ y) := by
  induction x using scan_induction head with
  | nil => exact List.nil_prefix
  | read text spec rest h ih =>
    rw [hp.specifiers_read h, hp.specifiers_read (h.append y)]
    exact (List.prefix_cons_inj spec).2 ih
  | skip c text h ih =>
    -- a reading that goes on in `y` leaves fewer than two quotes here, so nothing was found
    by_cases htwo : 2 ≤ (c :: text).countP isQuote
    · have hlonger : ∀ spec rest, ¬Reads head (c :: (text ++ y)) spec rest := by
        intro spec rest hread
        obtain ⟨more, hread, -⟩ := Reads.cut hp.bare (x := c :: text) hread htwo
        exact h spec more hread
      rw [hp.specifiers_cons h, List.cons_append, hp.specifiers_cons hlonger]
      exact ih
    · rw [hp.specifiers_eq_nil (by omega)]
      exact List.nil_prefix

/-- What is found in two joined texts is what is found in each, if no reading crosses the border. -/
theorem specifiers_append (hp : ReadsBehind head p) (hx : ¬Crosses head x y) :
    p.specifiers (x ++ y) = p.specifiers x ++ p.specifiers y := by
  induction x using scan_induction head with
  | nil => rfl
  | read text spec rest h ih =>
    rw [hp.specifiers_read h, hp.specifiers_read (h.append y), List.cons_append,
      ih (mt (Crosses.of_suffix h.suffix) hx)]
  | skip c text h ih =>
    have hlonger : ∀ spec rest, ¬Reads head (c :: (text ++ y)) spec rest := fun spec rest hread =>
      hx ⟨c :: text, spec, rest, List.suffix_refl _, List.cons_ne_nil c text, hread, h spec⟩
    rw [hp.specifiers_cons h, List.cons_append, hp.specifiers_cons hlonger,
      ih (mt (Crosses.of_suffix (List.suffix_cons c text)) hx)]

end ReadsBehind

end SourceLens.Pattern
