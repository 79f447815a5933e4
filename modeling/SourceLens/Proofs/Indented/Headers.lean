import SourceLens.Indented.Analysis
import SourceLens.Proofs.Pattern.Language
import SourceLens.Proofs.Text.Widening

/-!
# Headers of definitions

Replacing tabs by spaces does not turn a statement into a definition or a definition into something
else (`isDef_widens`, `isClass_widens`), and a complete header stays complete. So a statement
without a problem in its header has none afterwards (`headerProblem_widens`).
-/

namespace SourceLens.Indented

open Text (Widens)
open Pattern Descriptor

/-! ## Matches in a wider text -/

/-- Two places that are both after a word character, or both not. -/
def SameSide (a b : Option Char) : Prop := a.any isWord = b.any isWord

/-- Whether every match of a pattern is one in a wider text too. -/
structure WidensWith (p : Pattern) : Prop where
  spans : ∀ {before before' : Option Char} {x x' after after' : Text}, SameSide before before' →
    Widens x x' → Widens after after' → p.Spans before x after → p.Spans before' x' after'

theorem head_widens {a b : Text} (h : Widens a b) : SameSide a.head? b.head? := by
  cases h with
  | nil => rfl
  | keep c _ => rfl
  | tab n _ =>
    have hblank : isWord '\t' = isWord ' ' := by decide
    exact hblank

theorem lastOf_widens {before before' : Option Char} (hside : SameSide before before')
    {x x' : Text} (h : Widens x x') : SameSide (lastOf before x) (lastOf before' x') := by
  have hhead := head_widens h.reverse
  rw [List.head?_reverse, List.head?_reverse] at hhead
  have hnil := h.eq_nil_iff
  rw [← List.getLast?_eq_none_iff, ← List.getLast?_eq_none_iff] at hnil
  rw [lastOf, lastOf]
  cases hx : x.getLast? with
  | none => rw [hnil.1 hx]; exact hside
  | some c =>
    cases hx' : x'.getLast? with
    | none => simp [hnil.2 hx'] at hx
    | some c' => rwa [hx, hx'] at hhead

namespace WidensWith

theorem empty : WidensWith .empty := by
  constructor
  rintro before before' x x' after after' - hx - rfl
  exact hx.eq_nil_iff.1 rfl

theorem seq {p q : Pattern} (hp : WidensWith p) (hq : WidensWith q) : WidensWith (seq p q) := by
  constructor
  rintro before before' x x' after after' hside hx hafter ⟨y, z, rfl, hy, hz⟩
  obtain ⟨y', z', rfl, hyy, hzz⟩ := hx.of_append
  exact ⟨y', z', rfl, hp.spans hside hyy (hzz.append hafter) hy,
    hq.spans (lastOf_widens hside hyy) hzz hafter hz⟩

theorem opt {p : Pattern} (hp : WidensWith p) : WidensWith (opt p) := by
  constructor
  rintro before before' x x' after after' hside hx hafter (h | h)
  · exact .inl (hp.spans hside hx hafter h)
  · exact .inr (empty.spans hside hx hafter h)

theorem one {test : Char → Bool} (htab : test '\t' = false) : WidensWith (one test) := by
  constructor
  rintro before before' x x' after after' - hx - ⟨c, rfl, hc⟩
  have hne : c ≠ '\t' := by
    rintro rfl
    simp [htab] at hc
  obtain ⟨rest, rfl, hrest⟩ := hx.of_cons hne
  obtain rfl := hrest.eq_nil_iff.1 rfl
  exact ⟨c, rfl, hc⟩

theorem lit {text : String} (htab : '\t' ∉ text.toList) : WidensWith (lit text) := by
  rw [Pattern.lit]
  generalize text.toList = chars at htab
  induction chars with
  | nil => exact empty
  | cons c chars ih =>
    obtain ⟨hc, hchars⟩ := not_or.1 (mt List.mem_cons.2 htab)
    have hone : WidensWith (.one (· == c)) := one (by simpa using hc)
    cases chars with
    | nil => exact hone
    | cons d chars => exact hone.seq (ih hchars)

theorem forall_mem {test : Char → Bool} (htest : test '\t' = true → test ' ' = true) {x x' : Text}
    (hx : Widens x x') (h : ∀ c ∈ x, test c = true) : ∀ c ∈ x', test c = true := by
  induction hx with
  | nil => exact h
  | keep c _ ih =>
    obtain ⟨hc, hrest⟩ := List.forall_mem_cons.1 h
    exact List.forall_mem_cons.2 ⟨hc, ih hrest⟩
  | tab n _ ih =>
    obtain ⟨hc, hrest⟩ := List.forall_mem_cons.1 h
    intro c hmem
    rcases List.mem_append.1 hmem with hmem | hmem
    · rw [List.eq_of_mem_replicate hmem]
      exact htest hc
    · exact ih hrest c hmem

theorem many_one {test : Char → Bool} (htest : test '\t' = true → test ' ' = true) :
    WidensWith (many (.one test)) := by
  constructor
  intro before before' x x' after after' _ hx _ h
  exact spans_many_one.2 (forall_mem htest hx (spans_many_one.1 h))

theorem many1_one {test : Char → Bool} (htest : test '\t' = true → test ' ' = true) :
    WidensWith (many1 (.one test)) := by
  constructor
  intro before before' x x' after after' _ hx _ h
  obtain ⟨hne, hall⟩ := spans_many1_one.1 h
  exact spans_many1_one.2 ⟨mt hx.eq_nil_iff.2 hne, forall_mem htest hx hall⟩

theorem startsAt {p : Pattern} (hp : WidensWith p) {a b : Text} (h : Widens a b)
    (hstarts : p.startsAt a = true) : p.startsAt b = true := by
  obtain ⟨x, rest, rfl, hx⟩ := startsAt_iff.1 hstarts
  obtain ⟨x', rest', rfl, hxx, hrest⟩ := h.of_append
  exact startsAt_iff.2 ⟨x', rest', rfl, hp.spans rfl hxx hrest hx⟩

end WidensWith

theorem defStatement_widensWith : WidensWith defStatement :=
  .seq (.opt (.seq (.lit (by decide)) (.many1_one (by decide)))) <|
  .seq (.lit (by decide)) <| .seq (.many1_one (by decide)) <| .seq (.many1_one (by decide)) <|
  .seq (.many_one (by decide)) <| .seq (.lit (by decide)) <| .seq (.many_one (by decide)) <|
  .seq (.lit (by decide)) <| .seq (.many_one (by decide)) <|
  .seq (.opt (.seq (.lit (by decide)) (.many1_one (by decide)))) <| .lit (by decide)

theorem classStatement_widensWith : WidensWith classStatement :=
  .seq (.lit (by decide)) <| .seq (.many1_one (by decide)) <| .seq (.many1_one (by decide)) <|
  .seq (.many_one (by decide)) <|
  .seq (.opt (.seq (.lit (by decide)) (.seq (.many_one (by decide)) (.lit (by decide))))) <|
  .seq (.many_one (by decide)) <| .lit (by decide)

/-! ## Words after gaps -/

def IsGap (text : Text) : Prop := ∀ c ∈ text, c = ' ' ∨ c = '\t'

/-- Whether a text is a gap, not empty if it must not be, a word, and what `tail` says. -/
def LedBy (apart : Bool) (word : Text) (tail : Text → Prop) (text : Text) : Prop :=
  ∃ gap rest, IsGap gap ∧ (apart = true → gap ≠ []) ∧ text = gap ++ (word ++ rest) ∧ tail rest

def EndsWord (text : Text) : Prop := text.head?.any isWord = false

/-- Whether a property of texts does not depend on the width of their tabs. -/
def WidthBlind (property : Text → Prop) : Prop :=
  ∀ ⦃a b : Text⦄, Widens a b → (property a ↔ property b)

theorem widthBlind_endsWord : WidthBlind EndsWord := by
  intro a b h
  rw [EndsWord, EndsWord, head_widens h]

theorem isGap_widens {a b : Text} (h : Widens a b) : IsGap a ↔ IsGap b := by
  induction h with
  | nil => rfl
  | keep c _ ih => rw [IsGap, List.forall_mem_cons, ← IsGap, ih, IsGap, IsGap, List.forall_mem_cons]
  | tab n _ ih => simpa [IsGap, Text.spaces, or_imp, forall_and] using ih

theorem append_widens {word : Text} (hword : ∀ c ∈ word, c ≠ '\t' ∧ c ≠ ' ') :
    (∀ {rest b}, Widens (word ++ rest) b → ∃ rest', b = word ++ rest' ∧ Widens rest rest')
      ∧ ∀ {a rest'}, Widens a (word ++ rest') → ∃ rest, a = word ++ rest ∧ Widens rest rest' := by
  induction word with
  | nil => exact ⟨fun h => ⟨_, rfl, h⟩, fun h => ⟨_, rfl, h⟩⟩
  | cons c word ih =>
    obtain ⟨⟨htab, hspace⟩, hword⟩ := List.forall_mem_cons.1 hword
    obtain ⟨hright, hleft⟩ := ih hword
    refine ⟨fun h => ?_, fun h => ?_⟩
    · obtain ⟨b', rfl, hb⟩ := h.of_cons htab
      obtain ⟨rest', rfl, hrest⟩ := hright hb
      exact ⟨rest', rfl, hrest⟩
    · obtain ⟨a', rfl, ha⟩ := h.of_cons_right hspace
      obtain ⟨rest, rfl, hrest⟩ := hleft ha
      exact ⟨rest, rfl, hrest⟩

theorem widthBlind_ledBy (apart : Bool) {word : Text} {tail : Text → Prop} (hne : word ≠ [])
    (hword : ∀ c ∈ word, c ≠ '\t' ∧ c ≠ ' ') (htail : WidthBlind tail) :
    WidthBlind (LedBy apart word tail) := by
  intro a b h
  obtain ⟨hright, -⟩ := append_widens hword
  constructor
  · rintro ⟨gap, rest, hgap, hapart, rfl, hrest⟩
    obtain ⟨gap', b', rfl, hgap', hb⟩ := h.of_append
    obtain ⟨rest', rfl, hrest'⟩ := hright hb
    exact ⟨gap', rest', (isGap_widens hgap').1 hgap,
      fun hset => mt hgap'.eq_nil_iff.2 (hapart hset), rfl, (htail hrest').1 hrest⟩
  · rintro ⟨gap', rest', hgap', hapart, rfl, hrest'⟩
    obtain ⟨c, word, rfl⟩ := List.exists_cons_of_ne_nil hne
    obtain ⟨⟨-, hspace⟩, hword⟩ := List.forall_mem_cons.1 hword
    obtain ⟨gap, a', rfl, hgap, ha⟩ := h.cut_of_append_cons hspace
    obtain ⟨rest, rfl, hrest⟩ := (append_widens hword).2 ha
    exact ⟨gap, rest, (isGap_widens hgap).2 hgap',
      fun hset => mt hgap.eq_nil_iff.1 (hapart hset), rfl, (htail hrest).2 hrest'⟩

theorem begins_keyword {word : String} (hlast : word.toList.getLast?.any isWord = true)
    {before : Option Char} {text : Text} :
    (chain [lit word, wordEdge, gaps, group 1 (many wordChar)]).Begins before text
      ↔ ∃ rest, text = word.toList ++ rest ∧ EndsWord rest := by
  have hbefore : (lastOf before word.toList).any isWord = true := by
    rw [lastOf]
    cases h : word.toList.getLast? with
    | none => simp [h] at hlast
    | some c => rwa [h] at hlast
  constructor
  · intro h
    obtain ⟨y, rest, rfl, hy, h⟩ := begins_seq.1 h
    obtain ⟨z, rest, rfl, ⟨rfl, hedge⟩, -⟩ := begins_seq.1 h
    rw [spans_lit] at hy
    rw [hy, hbefore] at hedge
    exact ⟨rest, by rw [hy, List.nil_append], by simpa [EndsWord] using hedge⟩
  · rintro ⟨rest, rfl, hend⟩
    refine begins_seq.2 ⟨_, rest, rfl, spans_lit.2 rfl, ?_⟩
    refine begins_seq.2 ⟨[], rest, rfl, ⟨rfl, by rw [hbefore, hend]; rfl⟩, ?_⟩
    refine begins_seq.2 ⟨[], rest, rfl, spans_many_one.2 (by simp), ?_⟩
    exact ⟨[], rest, rfl, spans_many_one.2 (by simp)⟩

theorem spans_gaps {before : Option Char} {x after : Text} :
    gaps.Spans before x after ↔ IsGap x :=
  spans_many_one.trans (by simp [IsGap])

theorem spans_gaps1 {before : Option Char} {x after : Text} :
    gaps1.Spans before x after ↔ x ≠ [] ∧ IsGap x :=
  spans_many1_one.trans (by simp [IsGap])

theorem isDef_iff {code : Text} :
    isDef code = true ↔ LedBy false "def".toList EndsWord code
      ∨ LedBy false "async".toList (LedBy true "def".toList EndsWord) code := by
  rw [isDef, startsAt_iff]
  constructor
  · intro h
    obtain ⟨gap, rest, rfl, hgap, h⟩ := begins_seq.1 h
    obtain ⟨a, rest, rfl, ha, h⟩ := begins_seq.1 h
    obtain ⟨rest, rfl, hend⟩ := (begins_keyword (by decide)).1 h
    rcases spans_opt.1 ha with ⟨y, z, rfl, hy, hz⟩ | rfl
    · obtain ⟨hne, hz⟩ := spans_gaps1.1 hz
      rw [spans_lit] at hy
      refine .inr ⟨gap, _, spans_gaps.1 hgap, by simp, by rw [hy, List.append_assoc], ?_⟩
      exact ⟨z, rest, hz, fun _ => hne, rfl, hend⟩
    · exact .inl ⟨gap, rest, spans_gaps.1 hgap, by simp, rfl, hend⟩
  · rintro (⟨gap, rest, hgap, -, rfl, hend⟩ | ⟨gap, _, hgap, -, rfl, z, rest, hz, hne, rfl, hend⟩)
    · refine begins_seq.2 ⟨gap, _, rfl, spans_gaps.2 hgap, ?_⟩
      refine begins_seq.2 ⟨[], _, rfl, .inr rfl, ?_⟩
      exact (begins_keyword (by decide)).2 ⟨rest, rfl, hend⟩
    · refine begins_seq.2 ⟨gap, _, rfl, spans_gaps.2 hgap, ?_⟩
      refine begins_seq.2 ⟨"async".toList ++ z, _, (List.append_assoc ..).symm, .inl ?_, ?_⟩
      · exact ⟨_, z, rfl, spans_lit.2 rfl, spans_gaps1.2 ⟨hne rfl, hz⟩⟩
      · exact (begins_keyword (by decide)).2 ⟨rest, rfl, hend⟩

theorem isClass_iff {code : Text} :
    isClass code = true ↔ LedBy false "class".toList EndsWord code := by
  rw [isClass, startsAt_iff]
  constructor
  · intro h
    obtain ⟨gap, rest, rfl, hgap, h⟩ := begins_seq.1 h
    obtain ⟨rest, rfl, hend⟩ := (begins_keyword (by decide)).1 h
    exact ⟨gap, rest, spans_gaps.1 hgap, by simp, rfl, hend⟩
  · rintro ⟨gap, rest, hgap, -, rfl, hend⟩
    refine begins_seq.2 ⟨gap, _, rfl, spans_gaps.2 hgap, ?_⟩
    exact (begins_keyword (by decide)).2 ⟨rest, rfl, hend⟩

theorem isDef_widens {a b : Text} (h : Widens a b) : isDef a = isDef b := by
  have hdef (apart : Bool) : WidthBlind (LedBy apart "def".toList EndsWord) :=
    widthBlind_ledBy apart (by decide) (by simp) widthBlind_endsWord
  have hasync : WidthBlind (LedBy false "async".toList (LedBy true "def".toList EndsWord)) :=
    widthBlind_ledBy false (by decide) (by simp) (hdef true)
  rw [Bool.eq_iff_iff, isDef_iff, isDef_iff, hdef false h, hasync h]

theorem isClass_widens {a b : Text} (h : Widens a b) : isClass a = isClass b := by
  have hclass : WidthBlind (LedBy false "class".toList EndsWord) :=
    widthBlind_ledBy false (by decide) (by simp) widthBlind_endsWord
  rw [Bool.eq_iff_iff, isClass_iff, isClass_iff, hclass h]

theorem headerProblem_eq_none {entry : LogicalLine} :
    headerProblem entry = none
      ↔ (isDef entry.code = true → defStatement.startsAt entry.code = true)
        ∧ (isDef entry.code = false → isClass entry.code = true →
          classStatement.startsAt entry.code = true) := by
  rw [headerProblem]
  split_ifs <;> simp_all

/-- A header without a problem has none when its tabs are replaced. -/
theorem headerProblem_widens {a b : LogicalLine} (h : Widens a.code b.code)
    (hnone : headerProblem a = none) : headerProblem b = none := by
  rw [headerProblem_eq_none, isDef_widens h, isClass_widens h] at hnone
  obtain ⟨hdef, hclass⟩ := hnone
  exact headerProblem_eq_none.2 ⟨fun hb => defStatement_widensWith.startsAt h (hdef hb),
    fun hb hc => classStatement_widensWith.startsAt h (hclass hb hc)⟩

theorem diagnose_eq_nil {text : Text} :
    diagnose text = [] ↔ (levels (scan text).logical).2 = [] ∧ (scan text).diagnostics = []
      ∧ ∀ entry ∈ (scan text).logical, headerProblem entry = none := by
  have hsort (found : List Diagnostic) : Diagnostic.sort found = [] ↔ found = [] := by
    rw [← List.length_eq_zero_iff, (Diagnostic.sort_perm found).length_eq, List.length_eq_zero_iff]
  simp only [diagnose, hsort, List.append_eq_nil_iff, List.filterMap_eq_nil_iff, and_assoc]

end SourceLens.Indented
