import Mathlib.Data.List.Pairwise
import SourceLens.Indented.Analysis
import SourceLens.Proofs.Indented.Rendering

/-!
# Nested ranges

Logical lines take up ranges of physical lines, one behind the other, and every line that has code
lies in exactly one of them. A block is a run of logical lines, so of two blocks one lies inside the
other or behind it, whatever the indentation is. So the entries of an outline are well nested
(`outline_nested`), for texts with problems too.
-/

namespace SourceLens

/-- No line belongs to both entries. -/
def OutlineEntry.Apart (a b : OutlineEntry) : Prop := a.stop < b.start ∨ b.stop < a.start

/-- All lines of the second entry belong to the first. -/
def OutlineEntry.Contains (a b : OutlineEntry) : Prop := a.start ≤ b.start ∧ b.stop ≤ a.stop

namespace Indented

/-! ## The ranges of logical lines -/

/-- Logical lines one behind the other. -/
structure Ordered (logical : List LogicalLine) : Prop where
  behind : logical.Pairwise fun a b => a.stop < b.line
  line_le_stop : ∀ e ∈ logical, e.line ≤ e.stop

theorem Ordered.of_append (front : List LogicalLine) {back : List LogicalLine}
    (h : Ordered (front ++ back)) : Ordered back where
  behind := (List.pairwise_append.1 h.behind).2.1
  line_le_stop e he := h.line_le_stop e (List.mem_append_right front he)

theorem Ordered.tail {e : LogicalLine} {rest : List LogicalLine} (h : Ordered (e :: rest)) :
    Ordered rest := h.of_append [e]

/-- A logical line under way ends on the line before. -/
def Pending.Just (pending : Pending) (i : Nat) : Prop :=
  ∀ c ∈ pending.current, c.line ≤ c.stop ∧ c.stop < i

theorem Pending.Just.underway {pending : Pending} {i : Nat} (h : pending.Just i) {text : Text}
    {c : LogicalLine} (hc : pending.underway i text = some c) : c.line ≤ c.stop ∧ c.stop = i := by
  obtain ⟨hstop, ⟨-, hline, -⟩ | ⟨d, hd, hline, -⟩⟩ := underway_cases hc
  · omega
  · have hbefore := h d hd
    omega

theorem Pending.Just.feed {pending : Pending} {i : Nat} (h : pending.Just i) (text : Text) :
    (pending.feed i text).1.Just (i + 1) := by
  intro c hc
  rw [(feed_logical pending i text).1] at hc
  split_ifs at hc
  · simp at hc
  · obtain ⟨hline, hstop⟩ := h.underway hc
    omega

theorem ordered_scanFrom (texts : List Text) :
    ∀ {pending : Pending} {i : Nat}, pending.Just i →
      Ordered (scanFrom pending i texts).logical
        ∧ ∀ e ∈ (scanFrom pending i texts).logical, e.stop < i + texts.length := by
  induction texts with
  | nil =>
    intro pending i hjust
    have hlogical : (scanFrom pending i []).logical = pending.current.toList := rfl
    rw [hlogical]
    cases hc : pending.current with
    | none => exact ⟨⟨List.Pairwise.nil, by simp⟩, by simp⟩
    | some c =>
      obtain ⟨hline, hstop⟩ := hjust c hc
      exact ⟨⟨List.pairwise_singleton _ _, by simpa using hline⟩, by simpa using hstop⟩
  | cons text rest ih =>
    intro pending i hjust
    obtain ⟨hordered, hwithin⟩ := ih (hjust.feed text)
    obtain ⟨hnext, hfound⟩ := feed_logical pending i text
    have hlogical : (scanFrom pending i (text :: rest)).logical
        = (pending.feed i text).2.logical
          ++ (scanFrom (pending.feed i text).1 (i + 1) rest).logical := rfl
    rw [List.length_cons]
    by_cases hcomplete : pending.reader.completes text = true
    · rw [if_pos hcomplete] at hnext hfound
      cases hu : pending.underway i text with
      | none =>
        rw [hu] at hfound
        rw [hlogical, hfound]
        exact ⟨hordered, fun e he => by have := hwithin e he; omega⟩
      | some u =>
        rw [hu] at hfound
        obtain ⟨hline, hstop⟩ := hjust.underway hu
        have hbehind := le_line_of_mem_scanFrom rest (pending.feed i text).1 (Nat.le_refl (i + 1))
          (by simp [hnext])
        rw [hlogical, hfound, Option.toList_some, List.singleton_append]
        refine ⟨⟨List.pairwise_cons.2 ⟨fun e he => ?_, hordered.behind⟩,
          List.forall_mem_cons.2 ⟨hline, hordered.line_le_stop⟩⟩,
          List.forall_mem_cons.2 ⟨by omega, fun e he => ?_⟩⟩
        · have := hbehind e he
          omega
        · have := hwithin e he
          omega
    · rw [if_neg hcomplete] at hfound
      rw [hlogical, hfound]
      exact ⟨hordered, fun e he => by have := hwithin e he; omega⟩

theorem ordered_scan (text : Text) :
    Ordered (scan text).logical ∧ ∀ e ∈ (scan text).logical, e.stop < (Text.lines text).length := by
  have hjust : Pending.Just {} 0 := by simp [Pending.Just]
  have h := ordered_scanFrom (Text.lines text) hjust
  rwa [Nat.zero_add] at h

/-! ## The lines of a logical line -/

/-- The code that each line adds to a logical line: what is left of it without literals, comments,
blanks at its ends and the backslash that joins it to the next one. The first line starts in a
literal with the given quote, if there is one. -/
def lineCodes : Option Char → List Text → List Text
  | _, [] => []
  | literal, text :: rest =>
    let (marks, last) := lex (startMode literal) text
    (joinable (codeOf marks)).1 :: lineCodes (openQuote last) rest

/-- Whether line `i` of a text has code. -/
def HasCode (text : Text) (i : Nat) : Prop :=
  ∃ code, (lineCodes none (Text.lines text))[i]? = some code ∧ code ≠ []

theorem exists_of_lineCodes (texts : List Text) :
    ∀ {pending : Pending} {i k : Nat} {code : Text}, pending.Sound i →
      (lineCodes pending.reader.literal texts)[k]? = some code → code ≠ [] →
      ∃ e ∈ (scanFrom pending i texts).logical, e.line ≤ i + k ∧ i + k ≤ e.stop := by
  induction texts with
  | nil =>
    intro pending i k code _ hcode _
    simp [lineCodes] at hcode
  | cons text rest ih =>
    intro pending i k code hsound hcode hne
    cases k with
    | zero =>
      obtain rfl : (joinable (pending.reader.codeIn text)).1 = code := by
        simpa [lineCodes, Reader.codeIn] using hcode
      obtain ⟨c, hc⟩ : ∃ c, pending.underway i text = some c := by
        rw [Pending.underway]
        cases pending.current with
        | none => exact ⟨_, by rw [extend, if_neg (by simpa using hne)]⟩
        | some d => exact ⟨_, rfl⟩
      obtain ⟨e, more, hlogical, hline, -, hstop⟩ := scanFrom_head_of_underway rest hc
      refine ⟨e, hlogical ▸ List.mem_cons_self, ?_, hstop⟩
      obtain ⟨-, ⟨-, hstart, -⟩ | ⟨d, hd, hstart, -⟩⟩ := underway_cases hc
      · omega
      · have hbefore := hsound.line d hd
        omega
    | succ k =>
      have hliteral : (pending.feed i text).1.reader.literal
          = openQuote (lex (startMode pending.reader.literal) text).2 := by
        rw [(feed_reader pending i text).1, Reader.feed_eq, Reader.lastMode]
      have hrest : (lineCodes (pending.feed i text).1.reader.literal rest)[k]? = some code := by
        rw [hliteral]
        exact hcode
      obtain ⟨e, he, hline, hstop⟩ := ih (hsound.feed text) hrest hne
      exact ⟨e, List.mem_append_right _ he, by omega, by omega⟩

theorem eq_or_of_pairwise {α : Type} {before : α → α → Prop} {xs : List α}
    (h : xs.Pairwise before) {a b : α} (ha : a ∈ xs) (hb : b ∈ xs) :
    a = b ∨ before a b ∨ before b a :=
  (h.imp fun hab => .inr (.inl hab)).forall_of_forall_of_flip
    (R := fun a b => a = b ∨ before a b ∨ before b a) (fun _ _ => .inl rfl)
    (h.imp fun hab => .inr (.inr hab)) ha hb

theorem Ordered.eq_of_common {logical : List LogicalLine} (h : Ordered logical) {a b : LogicalLine}
    (ha : a ∈ logical) (hb : b ∈ logical) {i : Nat} (hai : a.line ≤ i ∧ i ≤ a.stop)
    (hbi : b.line ≤ i ∧ i ≤ b.stop) : a = b := by
  rcases eq_or_of_pairwise h.behind ha hb with heq | hab | hba
  · exact heq
  · omega
  · omega

theorem existsUnique_of_hasCode {text : Text} {i : Nat} (h : HasCode text i) :
    ∃! e, e ∈ (scan text).logical ∧ e.line ≤ i ∧ i ≤ e.stop := by
  obtain ⟨code, hcode, hne⟩ := h
  obtain ⟨e, he, hline, hstop⟩ := exists_of_lineCodes (Text.lines text) sound_start hcode hne
  rw [Nat.zero_add] at hline hstop
  exact ⟨e, ⟨he, hline, hstop⟩, fun f hf =>
    (ordered_scan text).1.eq_of_common hf.1 he hf.2 ⟨hline, hstop⟩⟩

/-! ## Blocks -/

theorem mem_withRest_iff {e : LogicalLine} {rest logical : List LogicalLine} :
    (e, rest) ∈ withRest logical ↔ ∃ front, logical = front ++ e :: rest := by
  induction logical with
  | nil => simp [withRest]
  | cons first later ih =>
    rw [withRest, List.mem_cons, ih]
    constructor
    · rintro (h | ⟨front, rfl⟩)
      · obtain ⟨rfl, rfl⟩ := Prod.mk.inj h
        exact ⟨[], rfl⟩
      · exact ⟨first :: front, rfl⟩
    · rintro ⟨front, h⟩
      cases front with
      | nil =>
        obtain ⟨rfl, rfl⟩ := List.cons.inj h
        exact .inl rfl
      | cons f front =>
        obtain ⟨rfl, rfl⟩ := List.cons.inj h
        exact .inr ⟨front, rfl⟩

theorem mem_of_mem_withRest {e : LogicalLine} {rest logical : List LogicalLine}
    (h : (e, rest) ∈ withRest logical) : e ∈ logical := by
  obtain ⟨front, rfl⟩ := mem_withRest_iff.1 h
  exact List.mem_append_right front List.mem_cons_self

theorem exists_withRest {e : LogicalLine} {logical : List LogicalLine} (h : e ∈ logical) :
    ∃ rest, (e, rest) ∈ withRest logical := by
  obtain ⟨front, rest, rfl⟩ := List.append_of_mem h
  exact ⟨rest, mem_withRest_iff.2 ⟨front, rfl⟩⟩

theorem eq_or_follows {logical : List LogicalLine} (h : Ordered logical) {e f : LogicalLine}
    {rest frest : List LogicalLine} (he : (e, rest) ∈ withRest logical)
    (hf : (f, frest) ∈ withRest logical) (hline : e.line ≤ f.line) :
    (e = f ∧ rest = frest) ∨ ∃ mid, rest = mid ++ f :: frest := by
  obtain ⟨front, rfl⟩ := mem_withRest_iff.1 he
  obtain ⟨front', hsame⟩ := mem_withRest_iff.1 hf
  rcases List.append_eq_append_iff.1 hsame with ⟨mid, -, hmid⟩ | ⟨mid, hfront, hmid⟩
  · cases mid with
    | nil => exact .inl (List.cons.inj hmid)
    | cons g mid => exact .inr ⟨mid, (List.cons.inj hmid).2⟩
  · cases mid with
    | nil =>
      obtain ⟨rfl, rfl⟩ := List.cons.inj hmid
      exact .inl ⟨rfl, rfl⟩
    | cons g mid =>
      -- the second line would stand above the first
      obtain ⟨rfl, rfl⟩ := List.cons.inj hmid
      have hbehind := (List.pairwise_append.1 h.behind).2.2 f (by simp [hfront]) e List.mem_cons_self
      have hstop := h.line_le_stop f (by simp [hfront])
      omega

section Blocks

variable {e f : LogicalLine} {rest frest : List LogicalLine}

theorem block_cons (e g : LogicalLine) (rest : List LogicalLine) :
    block e (g :: rest) = if e.indent < g.indent then g :: block e rest else [] := by
  simp [block, List.takeWhile_cons]

theorem front_block (e : LogicalLine) (rest : List LogicalLine) : block e rest <+: rest :=
  List.takeWhile_prefix _

theorem block_append_of_forall {mid : List LogicalLine} (h : ∀ g ∈ mid, e.indent < g.indent)
    (rest : List LogicalLine) : block e (mid ++ rest) = mid ++ block e rest :=
  List.takeWhile_append_of_pos fun g hg => decide_eq_true (h g hg)

theorem block_of_append {inner later : List LogicalLine} (hinner : ∀ g ∈ inner, e.indent < g.indent)
    (hlater : ∀ g ∈ later.head?, g.indent ≤ e.indent) : block e (inner ++ later) = inner := by
  have hnone : block e later = [] := by
    cases later with
    | nil => rfl
    | cons g more => rw [block_cons, if_neg (Nat.not_lt.2 (hlater g rfl))]
  rw [block_append_of_forall hinner, hnone, List.append_nil]

theorem block_eq_self (h : ∀ g ∈ rest, e.indent < g.indent) : block e rest = rest :=
  List.takeWhile_eq_self_iff.2 fun g hg => decide_eq_true (h g hg)

theorem blockStop_eq (e : LogicalLine) (rest : List LogicalLine) :
    blockStop e rest = ((e :: block e rest).getLast (List.cons_ne_nil _ _)).stop := by
  rw [blockStop]
  cases hblock : block e rest with
  | nil => rfl
  | cons g more =>
    rw [List.getLast_cons (List.cons_ne_nil g more),
      List.getLast?_eq_getLast_of_ne_nil (List.cons_ne_nil g more)]
    rfl

theorem exists_blockStop (e : LogicalLine) (rest : List LogicalLine) :
    ∃ g ∈ e :: block e rest, blockStop e rest = g.stop :=
  ⟨_, List.getLast_mem _, blockStop_eq e rest⟩

theorem stop_le_blockStop (h : Ordered (e :: rest)) {g : LogicalLine}
    (hg : g ∈ e :: block e rest) : g.stop ≤ blockStop e rest := by
  have hsub : (e :: block e rest).Sublist (e :: rest) := (front_block e rest).sublist.cons_cons e
  have hstops : (e :: block e rest).Pairwise fun a b => a.stop ≤ b.stop := by
    refine (h.behind.sublist hsub).imp_of_mem fun {a b} _ hb hab => ?_
    have hline := h.line_le_stop b (hsub.subset hb)
    omega
  rw [blockStop_eq]
  exact hstops.rel_getLast_of_rel_getLast_getLast hg (Nat.le_refl _)

theorem line_le_blockStop (h : Ordered (e :: rest)) : e.line ≤ blockStop e rest :=
  (h.line_le_stop e List.mem_cons_self).trans (stop_le_blockStop h List.mem_cons_self)

theorem front_block_of_not_all {mid : List LogicalLine}
    (h : ¬∀ g ∈ mid ++ [f], e.indent < g.indent) : block e (mid ++ f :: frest) <+: mid := by
  induction mid with
  | nil =>
    have hf : ¬e.indent < f.indent := by simpa using h
    simp [block, hf]
  | cons g mid ih =>
    rw [List.cons_append, block_cons]
    split_ifs with hg
    · exact (List.prefix_cons_inj g).2 (ih fun hall => h (List.forall_mem_cons.2 ⟨hg, hall⟩))
    · exact List.nil_prefix

/-- What stands before a later line that starts inside a block is in the block, and so are that line and
its own block. -/
theorem block_of_within {mid : List LogicalLine} (h : Ordered (e :: (mid ++ f :: frest)))
    (hf : f.line ≤ blockStop e (mid ++ f :: frest)) :
    ∃ more, block e (mid ++ f :: frest) = mid ++ f :: (block f frest ++ more) := by
  by_cases hall : ∀ g ∈ mid ++ [f], e.indent < g.indent
  · have hblock : block e (mid ++ f :: frest) = mid ++ f :: block e frest := by
      rw [List.append_cons, block_append_of_forall hall, List.append_assoc]
      rfl
    have hindent := hall f (by simp)
    -- a line further in than the later one is further in than the header
    have hinner : block f frest = block f (block e frest) := by
      rw [block, block, block, List.takeWhile_takeWhile]
      congr 1
      funext g
      simp
      omega
    obtain ⟨more, hmore⟩ := front_block f (block e frest)
    exact ⟨more, by rw [hblock, hinner, hmore]⟩
  · obtain ⟨g, hg, hstop⟩ := exists_blockStop e (mid ++ f :: frest)
    have hfront : g ∈ e :: mid :=
      (List.mem_cons.1 hg).elim (· ▸ List.mem_cons_self)
        fun hmem => List.mem_cons_of_mem e ((front_block_of_not_all hall).subset hmem)
    have hbehind : ((e :: mid) ++ f :: frest).Pairwise fun a b => a.stop < b.line := h.behind
    have hlt := (List.pairwise_append.1 hbehind).2.2 g hfront f List.mem_cons_self
    omega

theorem indent_of_mem_block {g : LogicalLine} (h : g ∈ block e rest) : e.indent < g.indent := by
  simpa using List.mem_takeWhile_imp h

theorem behind_or_within {mid : List LogicalLine} (h : Ordered (e :: (mid ++ f :: frest))) :
    blockStop e (mid ++ f :: frest) < f.line
      ∨ e.indent < f.indent ∧ blockStop f frest ≤ blockStop e (mid ++ f :: frest) := by
  rcases Nat.lt_or_ge (blockStop e (mid ++ f :: frest)) f.line with hbehind | hwithin
  · exact .inl hbehind
  · obtain ⟨more, hblock⟩ := block_of_within h hwithin
    have hmem {g : LogicalLine} (hg : g ∈ f :: block f frest) : g ∈ block e (mid ++ f :: frest) := by
      rw [hblock, ← List.cons_append]
      exact List.mem_append_right mid (List.mem_append_left more hg)
    obtain ⟨g, hg, hstop⟩ := exists_blockStop f frest
    refine .inr ⟨indent_of_mem_block (hmem List.mem_cons_self), ?_⟩
    rw [hstop]
    exact stop_le_blockStop h (List.mem_cons_of_mem e (hmem hg))

end Blocks

/-! ## The outline -/

theorem range_of_outlined {e : LogicalLine} {rest : List LogicalLine} {a : OutlineEntry}
    (h : Ordered (e :: rest)) (ha : outlined? e rest = some a) :
    a.start = e.line
      ∧ (a.kind = .binding ∧ e.indent = 0 ∧ a.stop = e.stop
        ∨ a.kind ≠ .binding ∧ a.stop = blockStop e rest) := by
  have hblock := line_le_blockStop h
  have hline := h.line_le_stop e List.mem_cons_self
  unfold outlined? at ha
  split at ha
  · obtain rfl := Option.some.inj ha
    exact ⟨rfl, .inr ⟨nofun, Nat.max_eq_right hblock⟩⟩
  · split at ha
    · obtain rfl := Option.some.inj ha
      exact ⟨rfl, .inr ⟨nofun, Nat.max_eq_right hblock⟩⟩
    · split_ifs at ha with hmargin
      obtain ⟨name, -, rfl⟩ := Option.map_eq_some_iff.1 ha
      exact ⟨rfl, .inl ⟨rfl, hmargin, Nat.max_eq_right hline⟩⟩

/-- One entry starts before another, which lies behind it or, if both have blocks, inside it. -/
def Leads (a b : OutlineEntry) : Prop :=
  a.start < b.start
    ∧ (a.stop < b.start ∨ a.kind ≠ .binding ∧ b.kind ≠ .binding ∧ b.stop ≤ a.stop)

theorem leads_of_outlined {e f : LogicalLine} {mid frest : List LogicalLine} {a b : OutlineEntry}
    (h : Ordered (e :: (mid ++ f :: frest))) (ha : outlined? e (mid ++ f :: frest) = some a)
    (hb : outlined? f frest = some b) : Leads a b := by
  have hstop : e.stop < f.line :=
    (List.pairwise_cons.1 h.behind).1 f (List.mem_append_right mid List.mem_cons_self)
  have hline := h.line_le_stop e List.mem_cons_self
  obtain ⟨hastart, harange⟩ := range_of_outlined h ha
  obtain ⟨hbstart, hbrange⟩ := range_of_outlined (h.of_append (e :: mid)) hb
  refine ⟨by omega, ?_⟩
  rcases harange with ⟨-, -, hastop⟩ | ⟨hakind, hastop⟩
  · exact .inl (by omega)
  · rcases behind_or_within h with hbehind | ⟨hindent, hwithin⟩
    · exact .inl (by omega)
    · -- what stands inside a block is indented, so it is no binding
      rcases hbrange with ⟨-, hmargin, -⟩ | ⟨hbkind, hbstop⟩
      · omega
      · exact .inr ⟨hakind, hbkind, by omega⟩

theorem pairwise_outlined {logical : List LogicalLine} (h : Ordered logical) :
    ((withRest logical).filterMap fun (e, rest) => outlined? e rest).Pairwise Leads := by
  induction logical with
  | nil => exact List.Pairwise.nil
  | cons e rest ih =>
    rw [withRest, List.filterMap_cons]
    dsimp only
    cases ha : outlined? e rest with
    | none => exact ih h.tail
    | some a =>
      refine List.pairwise_cons.2 ⟨fun b hb => ?_, ih h.tail⟩
      obtain ⟨⟨f, frest⟩, hf, hfound⟩ := List.mem_filterMap.1 hb
      obtain ⟨mid, rfl⟩ := mem_withRest_iff.1 hf
      exact leads_of_outlined h ha hfound

/-- An entry of an outline is the range of a logical line of the text, with its block unless it is a
binding. -/
theorem range_of_mem_outline {text : Text} {a : OutlineEntry} (h : a ∈ outline text) :
    ∃ e rest, (e, rest) ∈ withRest (scan text).logical ∧ a.start = e.line
      ∧ a.stop = (if a.kind = .binding then e.stop else blockStop e rest) := by
  obtain ⟨⟨e, rest⟩, hmem, ha⟩ := List.mem_filterMap.1 h
  obtain ⟨front, hlogical⟩ := mem_withRest_iff.1 hmem
  have hordered : Ordered (e :: rest) := (hlogical ▸ (ordered_scan text).1 :).of_append _
  obtain ⟨hstart, ⟨hkind, -, hstop⟩ | ⟨hkind, hstop⟩⟩ := range_of_outlined hordered ha
  · exact ⟨e, rest, hmem, hstart, by rw [if_pos hkind, hstop]⟩
  · exact ⟨e, rest, hmem, hstart, by rw [if_neg hkind, hstop]⟩

theorem exists_stop_of_outlined {e : LogicalLine} {rest : List LogicalLine} {a : OutlineEntry}
    (h : Ordered (e :: rest)) (ha : outlined? e rest = some a) : ∃ g ∈ e :: rest, a.stop = g.stop := by
  obtain ⟨-, ⟨-, -, hstop⟩ | ⟨-, hstop⟩⟩ := range_of_outlined h ha
  · exact ⟨e, List.mem_cons_self, hstop⟩
  · obtain ⟨g, hg, hblock⟩ := exists_blockStop e rest
    refine ⟨g, ?_, hstop.trans hblock⟩
    exact List.mem_cons.2 ((List.mem_cons.1 hg).imp id ((front_block e rest).subset ·))

theorem stop_lt_of_mem_outline {text : Text} {a : OutlineEntry} (h : a ∈ outline text) :
    a.stop < (Text.lines text).length := by
  obtain ⟨⟨e, rest⟩, hmem, ha⟩ := List.mem_filterMap.1 h
  obtain ⟨front, hlogical⟩ := mem_withRest_iff.1 hmem
  have hordered : Ordered (e :: rest) := (hlogical ▸ (ordered_scan text).1 :).of_append _
  obtain ⟨g, hg, hstop⟩ := exists_stop_of_outlined hordered ha
  rw [hstop]
  exact (ordered_scan text).2 g (hlogical ▸ List.mem_append_right front hg)

/-- For every text: the logical lines stand one behind the other on lines that there are, and every
line that has code is part of exactly one of them. The entries of the outline start on different
lines, in order; each is the range of a logical line, with its block unless it is a binding, and ends
within the text; two of them share no line, or one contains the other and neither is a binding. -/
theorem outline_nested (text : Text) :
    ((scan text).logical.Pairwise fun a b => a.stop < b.line)
    ∧ (∀ e ∈ (scan text).logical, e.line ≤ e.stop ∧ e.stop < (Text.lines text).length)
    ∧ (∀ i, HasCode text i → ∃! e, e ∈ (scan text).logical ∧ e.line ≤ i ∧ i ≤ e.stop)
    ∧ ((outline text).Pairwise fun a b => a.start < b.start)
    ∧ (∀ a ∈ outline text, a.start ≤ a.stop ∧ a.stop < (Text.lines text).length
        ∧ ∃ e rest, (e, rest) ∈ withRest (scan text).logical ∧ a.start = e.line
          ∧ a.stop = (if a.kind = .binding then e.stop else blockStop e rest))
    ∧ ∀ a ∈ outline text, ∀ b ∈ outline text, a ≠ b →
        a.Apart b
          ∨ a.kind ≠ .binding ∧ b.kind ≠ .binding ∧ (a.Contains b ∨ b.Contains a) := by
  obtain ⟨hordered, hwithin⟩ := ordered_scan text
  have houtline := pairwise_outlined hordered
  refine ⟨hordered.behind, fun e he => ⟨hordered.line_le_stop e he, hwithin e he⟩,
    fun i => existsUnique_of_hasCode, houtline.imp And.left, fun a ha =>
      ⟨a.start_le_stop, stop_lt_of_mem_outline ha, range_of_mem_outline ha⟩,
    fun a ha b hb hne => ?_⟩
  rcases (eq_or_of_pairwise houtline ha hb).resolve_left hne with hlead | hlead
  · obtain ⟨hstart, hbehind | ⟨hakind, hbkind, hstop⟩⟩ := hlead
    · exact .inl (.inl hbehind)
    · exact .inr ⟨hakind, hbkind, .inl ⟨Nat.le_of_lt hstart, hstop⟩⟩
  · obtain ⟨hstart, hbehind | ⟨hbkind, hakind, hstop⟩⟩ := hlead
    · exact .inl (.inr hbehind)
    · exact .inr ⟨hakind, hbkind, .inr ⟨Nat.le_of_lt hstart, hstop⟩⟩

end Indented

end SourceLens
