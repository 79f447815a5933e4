import SourceLens.Descriptor.Catalogue
import SourceLens.Proofs.Pattern.Evaluation
import SourceLens.Proofs.Pattern.Quoted

/-!
# Specifiers behind an introduction

A pattern that takes up an introduction and then a quoted specifier. If introductions have no quote in
them, then the next two quotes of a text settle what is read: the introduction must reach up to the
first one. So a search goes from quote to quote. It passes a piece and its quote
(`specifiersFrom_pass`), or reads the piece behind that quote as a specifier (`specifiersFrom_read`).
-/

namespace SourceLens.Pattern

/-! ## Going on with a search -/

section

variable {p : Pattern} {before : Option Char} {x rest : Text}

theorem lastOf_cons (before : Option Char) (c : Char) (x : Text) :
    lastOf before (c :: x) = lastOf (some c) x := lastOf_append before [c] x

theorem findAllFrom_skip (p : Pattern) (x rest : Text) :
    ∀ (before : Option Char) (offset : Nat), p.findAllFrom x.length before offset (x ++ rest)
      = p.findAllFrom 0 (lastOf before x) (offset + x.length) rest := by
  induction x with
  | nil => exact fun _ _ => rfl
  | cons c x ih =>
    intro before offset
    have hshift : offset + 1 + x.length = offset + (c :: x).length := by
      rw [List.length_cons]
      omega
    rw [List.length_cons, List.cons_append, findAllFrom, ih, lastOf_cons, hshift,
      List.length_cons]

theorem findAllFrom_found {offset : Nat} {groups : List (Nat × Text)} (hne : x ≠ [])
    (h : p.matchAt before offset (x ++ rest) = some ⟨offset, x, groups⟩) :
    p.findAllFrom 0 before offset (x ++ rest)
      = ⟨offset, x, groups⟩ :: p.findAllFrom 0 (lastOf before x) (offset + x.length) rest := by
  obtain ⟨c, x, rfl⟩ := List.exists_cons_of_ne_nil hne
  have hshift : offset + 1 + x.length = offset + (c :: x).length := by
    rw [List.length_cons]
    omega
  have hsome : p.matchSome before offset (c :: (x ++ rest)) = some ⟨offset, c :: x, groups⟩ := by
    rw [matchSome, ← List.cons_append, h]
    rfl
  rw [List.cons_append, findAllFrom, hsome]
  simp only [List.length_cons, Nat.add_sub_cancel, findAllFrom_skip, lastOf_cons, hshift]

theorem findAllFrom_missed (p : Pattern) (before : Option Char) (x rest : Text)
    (h : ∀ y z, x = y ++ z → z ≠ [] → ∀ offset,
      p.matchAt (lastOf before y) offset (z ++ rest) = none) (offset : Nat) :
    p.findAllFrom 0 before offset (x ++ rest)
      = p.findAllFrom 0 (lastOf before x) (offset + x.length) rest := by
  induction x generalizing before offset with
  | nil => rfl
  | cons c x ih =>
    have hnone : p.matchSome before offset (c :: (x ++ rest)) = none := by
      have hstart := h [] (c :: x) rfl (List.cons_ne_nil c x) offset
      rw [lastOf_nil, List.cons_append] at hstart
      rw [matchSome, hstart]
      rfl
    have hshift : offset + 1 + x.length = offset + (c :: x).length := by
      rw [List.length_cons]
      omega
    rw [List.cons_append, findAllFrom, hnone]
    simp only
    rw [ih (some c) fun y z hyz hz place => ?_, lastOf_cons, hshift]
    rw [← lastOf_cons before]
    exact h (c :: y) z (by rw [hyz]; rfl) hz place

theorem findAll_eq_nil {c : Char} {text : Text} (hc : c ∉ text)
    (hp : ∀ {before x after}, p.Spans before x after → c ∈ x) : p.findAll text = [] := by
  have hmissed := findAllFrom_missed p none text []
    (fun y z hyz _ offset => matchAt_eq_none (fun x after hz hspans => hc ?_) offset) 0
  · rw [List.append_nil] at hmissed
    rw [findAll, hmissed]
    rfl
  · rw [List.append_nil] at hz
    rw [hyz, hz]
    exact List.mem_append_right _ (List.mem_append_left _ (hp hspans))

theorem findAllFrom_congr {p' : Pattern} (h : p.run = p'.run) : p.findAllFrom = p'.findAllFrom := by
  have hmatch : p.matchSome = p'.matchSome := by
    funext before offset text
    rw [matchSome, matchSome, matchAt, matchAt, h]
  funext skip before offset text
  induction text generalizing skip before offset with
  | nil => rw [findAllFrom, findAllFrom]
  | cons c rest ih =>
    cases skip with
    | succ skip => rw [findAllFrom, findAllFrom, ih]
    | zero => simp only [findAllFrom, hmatch, ih]

end

/-! ## Introductions without quotes -/

/-- Patterns that take up a quote at most behind a brace. -/
inductive QuoteFree : Pattern → Prop
  | empty : QuoteFree .empty
  | one {test : Char → Bool} : (∀ c, isQuote c = true → test c = false) → QuoteFree (.one test)
  | seq {p q : Pattern} : QuoteFree p → QuoteFree q → QuoteFree (.seq p q)
  | alt {p q : Pattern} : QuoteFree p → QuoteFree q → QuoteFree (.alt p q)
  | many {test : Char → Bool} : (∀ c, isQuote c = true → test c = false) →
      QuoteFree (.many (.one test))
  | wordEdge : QuoteFree .wordEdge
  | braced (p : Pattern) : QuoteFree (.seq (lit "\x7b") p)

theorem QuoteFree.many1 {test : Char → Bool} (h : ∀ c, isQuote c = true → test c = false) :
    QuoteFree (many1 (.one test)) := .seq (.one h) (.many h)

theorem QuoteFree.lit {text : String} (h : text.toList.any isQuote = false) :
    QuoteFree (lit text) := by
  rw [List.any_eq_false] at h
  rw [Pattern.lit]
  generalize text.toList = chars at h
  induction chars with
  | nil => exact .empty
  | cons c chars ih =>
    obtain ⟨hc, hchars⟩ := List.forall_mem_cons.1 h
    have hone : QuoteFree (.one (· == c)) := by
      refine .one fun d hd => ?_
      rw [beq_eq_false_iff_ne]
      rintro rfl
      exact hc hd
    cases chars with
    | nil => exact hone
    | cons d chars => exact .seq hone (ih hchars)

theorem QuoteFree.bare {p : Pattern} (hp : QuoteFree p) {before : Option Char} {x after : Text}
    (hx : p.Spans before x after) (hbrace : '\x7b' ∉ x) : ∀ c ∈ x, isQuote c = false := by
  have htest {test : Char → Bool} (h : ∀ c, isQuote c = true → test c = false) {c : Char}
      (hc : test c = true) : isQuote c = false := by
    by_contra hquote
    rw [h c (Bool.not_eq_false _ ▸ hquote)] at hc
    exact absurd hc (by simp)
  induction hp generalizing before x after with
  | empty =>
    obtain rfl : x = [] := hx
    exact List.forall_mem_nil _
  | one h =>
    obtain ⟨c, rfl, hc⟩ := hx
    exact List.forall_mem_singleton.2 (htest h hc)
  | seq _ _ ihp ihq =>
    obtain ⟨y, z, rfl, hy, hz⟩ := hx
    rw [List.mem_append, not_or] at hbrace
    exact List.forall_mem_append.2 ⟨ihp hy hbrace.1, ihq hz hbrace.2⟩
  | alt _ _ ihp ihq => exact hx.elim (fun hx => ihp hx hbrace) fun hx => ihq hx hbrace
  | many h => exact fun c hc => htest h (spans_many_one.1 hx c hc)
  | wordEdge =>
    obtain ⟨rfl, -⟩ := hx
    exact List.forall_mem_nil _
  | braced p =>
    obtain ⟨y, z, rfl, hy, -⟩ := hx
    rw [spans_lit.1 hy] at hbrace
    exact absurd (List.mem_append_left z (by decide)) hbrace

/-! ## Quoted specifiers -/

section

open Descriptor

variable {s : Cursor} {k : Cursor → Option Cursor} {spec rest : Text} {q r : Char}

theorem run_specifier (hrest : s.rest = q :: (spec ++ r :: rest)) (hq : isQuote q = true)
    (hne : spec ≠ []) (hspec : ∀ c ∈ spec, isQuote c = false) (hr : isQuote r = true) :
    run specifier s k
      = k (s.past (q :: (spec ++ [r])) rest ((1, spec) :: s.groups)) := by
  have hopen := run_one_cons (t := isQuote)
    (k := fun there => run (seq (group 1 (many1 unquoted)) quote) there k) hrest hq
  have hbody := run_group_many1_skip (s := s.past [q] (spec ++ r :: rest) s.groups)
    (t := fun c => !isQuote c) (i := 1) (r := r :: rest)
    (k := fun there => run quote there k) rfl hne (fun c hc => by simp [hspec c hc])
    (by simp [hr]) fun {there} hthere => run_one_none (t := isQuote) (by
      cases h : there.rest with
      | nil => rfl
      | cons c more => simpa [h] using hthere)
  refine hopen.trans (hbody.trans ((run_one_cons (t := isQuote) rfl hr).trans ?_))
  rw [Cursor.past_groups, Cursor.past_past, Cursor.past_past]
  rfl

theorem run_specifier_none (h : s.rest.head?.any isQuote = false) :
    run specifier s k = none :=
  run_one_none (t := isQuote)
    (k := fun there => run (seq (group 1 (many1 unquoted)) quote) there k) h

theorem spans_specifier {before : Option Char} {x after : Text}
    (h : specifier.Spans before x after) : ∃ q spec r, x = q :: (spec ++ [r]) ∧ isQuote q = true
      ∧ spec ≠ [] ∧ (∀ c ∈ spec, isQuote c = false) ∧ isQuote r = true := by
  obtain ⟨_, _, rfl, ⟨q, rfl, hq⟩, spec, _, rfl, hspec, r, rfl, hr⟩ := h
  have hrun : spec ≠ [] ∧ ∀ c ∈ spec, (!isQuote c) = true := spans_many1_one.1 hspec
  exact ⟨q, spec, r, rfl, hq, hrun.1, fun c hc => by simpa using hrun.2 c hc, hr⟩

end

/-! ## Reading a specifier -/

/-- The specifiers that a search finds from a place on. -/
def specifiersFrom (p : Pattern) (before : Option Char) (offset : Nat) (text : Text) : List Text :=
  (p.findAllFrom 0 before offset text).map (·.group 1)

section

open Descriptor

variable {h : Pattern} (hh : QuoteFree h) {before : Option Char} {piece next rest text : Text}
  {q r : Char}

include hh

theorem exists_of_run_introduced {s found : Cursor} (hbrace : '\x7b' ∉ s.rest)
    (hrun : run (seq h specifier) s some = some found) :
    ∃ front q next r rest groups, s.rest = front ++ q :: (next ++ r :: rest)
      ∧ h.Spans s.before front (q :: (next ++ r :: rest))
      ∧ (∀ c ∈ front, isQuote c = false) ∧ isQuote q = true ∧ (∀ c ∈ next, isQuote c = false)
      ∧ isQuote r = true
      ∧ found = s.past (front ++ q :: (next ++ [r])) rest ((1, next) :: groups) := by
  obtain ⟨front, mid, groups, hrest, hfront, hspec⟩ := (faithful_run h).sound hrun
  obtain ⟨_, rest, -, hmid, hspans, -⟩ := (faithful_run specifier).sound hspec
  obtain ⟨q, next, r, rfl, hq, hne, hnext, hr⟩ := spans_specifier hspans
  have hmid' : mid = q :: (next ++ r :: rest) := by simpa using hmid
  rw [run_specifier hmid' hq hne hnext hr, Cursor.past_past, Cursor.past_groups] at hspec
  rw [hmid'] at hrest hfront
  rw [hrest, List.mem_append, not_or] at hbrace
  exact ⟨front, q, next, r, rest, groups, hrest, hfront, hh.bare hfront hbrace.1, hq, hnext, hr,
    (Option.some.inj hspec).symm⟩

theorem matchAt_introduced (hbrace : '\x7b' ∉ piece ++ q :: (next ++ r :: rest))
    (hspans : h.Spans before piece (q :: (next ++ r :: rest)))
    (hpiece : ∀ c ∈ piece, isQuote c = false) (hq : isQuote q = true) (hne : next ≠ [])
    (hnext : ∀ c ∈ next, isQuote c = false) (hr : isQuote r = true) (offset : Nat) :
    ∃ groups, (seq h specifier).matchAt before offset (piece ++ q :: (next ++ [r]) ++ rest)
      = some ⟨offset, piece ++ q :: (next ++ [r]), (1, next) :: groups⟩ := by
  have htext : piece ++ q :: (next ++ [r]) ++ rest = piece ++ q :: (next ++ r :: rest) := by simp
  let s : Cursor := ⟨before, piece ++ q :: (next ++ [r]) ++ rest, offset, []⟩
  have hsome : (run (seq h specifier) s some).isSome = true := by
    refine (faithful_run h).complete piece htext hspans fun groups => ?_
    rw [run_specifier rfl hq hne hnext hr]
    rfl
  obtain ⟨found, hfound⟩ := Option.isSome_iff_exists.1 hsome
  obtain ⟨front, q', next', r', rest', groups, hrest, -, hfront, hq', hnext', hr', rfl⟩ :=
    exists_of_run_introduced hh (by rwa [← htext] at hbrace) hfound
  obtain ⟨rfl, rfl, hmid⟩ := eq_of_first_quote (htext.symm.trans hrest) hpiece hfront hq hq'
  obtain ⟨rfl, rfl, rfl⟩ := eq_of_first_quote hmid hnext hnext' hr hr'
  exact ⟨groups, matchAt_eq_some s rfl hfound⟩

theorem matchAt_not_introduced (hbrace : '\x7b' ∉ piece ++ q :: rest)
    (hspans : ¬h.Spans before piece (q :: rest)) (hpiece : ∀ c ∈ piece, isQuote c = false)
    (hq : isQuote q = true) (offset : Nat) :
    (seq h specifier).matchAt before offset (piece ++ q :: rest) = none := by
  rw [matchAt, Option.map_eq_none_iff]
  by_contra hsome
  obtain ⟨found, hfound⟩ := Option.ne_none_iff_exists'.1 hsome
  obtain ⟨front, q', next', r', rest', -, hrest, hfront, hbare, hq', -⟩ :=
    exists_of_run_introduced hh hbrace hfound
  obtain ⟨rfl, rfl, rfl⟩ := eq_of_first_quote hrest hpiece hbare hq hq'
  exact hspans hfront

theorem specifiersFrom_few (hbrace : '\x7b' ∉ text) (htext : text.countP isQuote < 2)
    (offset : Nat) : (seq h specifier).specifiersFrom before offset text = [] := by
  have hmissed := findAllFrom_missed (seq h specifier) before text []
    (fun y z hyz _ offset => ?_) offset
  · rw [List.append_nil] at hmissed
    rw [specifiersFrom, hmissed]
    rfl
  rw [matchAt, Option.map_eq_none_iff]
  by_contra hsome
  obtain ⟨found, hfound⟩ := Option.ne_none_iff_exists'.1 hsome
  rw [List.append_nil] at hfound
  have hsuffix : z <:+ text := ⟨y, hyz.symm⟩
  obtain ⟨front, q, next, r, rest, -, hrest, -, -, hq, -, hr, -⟩ :=
    exists_of_run_introduced hh (mt (hsuffix.subset ·) hbrace) hfound
  have hrest' : z = front ++ q :: (next ++ r :: rest) := hrest
  have hle := hsuffix.sublist.countP_le (p := isQuote)
  rw [hrest'] at hle
  simp only [List.countP_append, List.countP_cons, hq, hr, if_true] at hle
  omega

/-- A piece and the quote behind it are passed, if no end of the piece is an introduction. -/
theorem specifiersFrom_pass (hbrace : '\x7b' ∉ piece ++ q :: rest)
    (hpiece : ∀ c ∈ piece, isQuote c = false) (hq : isQuote q = true)
    (hspans : ∀ y z, piece = y ++ z → ¬h.Spans (lastOf before y) z (q :: rest)) (offset : Nat) :
    (seq h specifier).specifiersFrom before offset (piece ++ q :: rest)
      = (seq h specifier).specifiersFrom (some q) (offset + (piece.length + 1)) rest := by
  have htext : piece ++ q :: rest = piece ++ [q] ++ rest := by simp
  have hlast : lastOf before (piece ++ [q]) = some q := lastOf_append before piece [q]
  have hmissed := findAllFrom_missed (seq h specifier) before (piece ++ [q]) rest
    (fun y z hyz hz offset => ?_) offset
  · rw [specifiersFrom, specifiersFrom, htext, hmissed, hlast, List.length_append,
      List.length_singleton]
  obtain ⟨z, c, rfl⟩ := (List.eq_nil_or_concat z).resolve_left hz
  rw [List.concat_eq_append, ← List.append_assoc] at hyz
  obtain ⟨hpart, hc⟩ := List.append_inj' hyz rfl
  obtain rfl := List.singleton_inj.1 hc
  rw [List.concat_eq_append, List.append_assoc, List.singleton_append]
  have hsuffix : z ++ q :: rest <:+ piece ++ q :: rest := ⟨y, by rw [hpart, List.append_assoc]⟩
  exact matchAt_not_introduced hh (mt (hsuffix.subset ·) hbrace) (hspans y z hpart)
    (fun c hc => hpiece c (by rw [hpart]; exact List.mem_append_right _ hc)) hq offset

/-- Behind a front at which nothing is read, the specifier behind an introduction is read. -/
theorem specifiersFrom_read {front : Text}
    (hbrace : '\x7b' ∉ front ++ (piece ++ q :: (next ++ r :: rest)))
    (hfront : ∀ c ∈ front, isQuote c = false) (hpiece : ∀ c ∈ piece, isQuote c = false)
    (hq : isQuote q = true) (hne : next ≠ []) (hnext : ∀ c ∈ next, isQuote c = false)
    (hr : isQuote r = true)
    (hskip : ∀ y z, front = y ++ z → z ≠ [] →
      ¬h.Spans (lastOf before y) (z ++ piece) (q :: (next ++ r :: rest)))
    (hspans : h.Spans (lastOf before front) piece (q :: (next ++ r :: rest))) (offset : Nat) :
    ∃ later, (seq h specifier).specifiersFrom before offset
        (front ++ (piece ++ q :: (next ++ r :: rest)))
      = next :: (seq h specifier).specifiersFrom (some r) later rest := by
  have htext : piece ++ q :: (next ++ r :: rest) = piece ++ q :: (next ++ [r]) ++ rest := by simp
  have hmissed := findAllFrom_missed (seq h specifier) before front
    (piece ++ q :: (next ++ r :: rest)) (fun y z hyz hz offset => ?_) offset
  · have hinner := mt (List.mem_append_right front) hbrace
    obtain ⟨groups, hmatch⟩ := matchAt_introduced hh hinner hspans hpiece hq hne hnext hr
      (offset + front.length)
    have hsplit : piece ++ q :: (next ++ [r]) = piece ++ q :: next ++ [r] := by simp
    have hlast : lastOf (lastOf before front) (piece ++ q :: (next ++ [r])) = some r := by
      rw [hsplit]
      exact lastOf_append _ _ [r]
    rw [specifiersFrom, hmissed, htext, findAllFrom_found (by simp) hmatch, hlast]
    exact ⟨_, rfl⟩
  rw [← List.append_assoc]
  have hsuffix : z ++ piece ++ q :: (next ++ r :: rest)
      <:+ front ++ (piece ++ q :: (next ++ r :: rest)) := ⟨y, by rw [hyz]; simp⟩
  refine matchAt_not_introduced hh (mt (hsuffix.subset ·) hbrace) (hskip y z hyz hz) ?_ hq offset
  exact List.forall_mem_append.2
    ⟨fun c hc => hfront c (by rw [hyz]; exact List.mem_append_right _ hc), hpiece⟩

end

end SourceLens.Pattern
