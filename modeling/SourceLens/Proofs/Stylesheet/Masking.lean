import Mathlib.Data.List.Forall2
import SourceLens.Proofs.Stylesheet.UseRules
import SourceLens.Proofs.Text.Offsets

/-!
# Masked positions

The tree of a style sheet is made from the masked text, and its positions are offsets in UTF-8 form.
Masking keeps them: the masked text has as many bytes, its line feeds stand where they stood, and
the bytes outside the use statements are the same (`mask_keeps_positions`). All of this is read off
the way statements lie between the parts that are kept (`Laid`).
-/

namespace SourceLens.Stylesheet

open Pattern Utf8

/-! ## Line feeds -/

/-- Two bytes of which both or none are line feeds. -/
def SameFeed (a b : UInt8) : Prop := a = Bytes.lineFeed ↔ b = Bytes.lineFeed

theorem forall₂_sameFeed_refl (bytes : Bytes) : List.Forall₂ SameFeed bytes bytes :=
  List.forall₂_same.2 fun _ _ => Iff.rfl

theorem eq_newline_of_mem {c : Char} (h : Bytes.lineFeed ∈ String.utf8EncodeChar c) : c = '\n' := by
  have hc : Char.ofNat c.val.toNat = c := Char.ofNat_toNat c
  have hbyte {n : Nat} (hn : n < 256) (hmem : Bytes.lineFeed = UInt8.ofNat n) : n = 10 := by
    rw [← toNat_ofNat hn, ← hmem]
    rfl
  have hhigh {n : Nat} (hn : n < 256) (hlow : 128 ≤ n) : Bytes.lineFeed ≠ UInt8.ofNat n := by
    intro hmem
    have := hbyte hn hmem
    omega
  rw [String.utf8EncodeChar] at h
  generalize c.val.toNat = v at h hc
  split_ifs at h
  · have hten : v = 10 := hbyte (by omega) (List.mem_singleton.1 h)
    rw [← hc, hten]
  all_goals simp only [List.mem_cons, List.not_mem_nil, or_false] at h
  · rcases h with h | h <;> exact absurd h (hhigh (by omega) (by omega))
  · rcases h with h | h | h <;> exact absurd h (hhigh (by omega) (by omega))
  · rcases h with h | h | h | h <;> exact absurd h (hhigh (by omega) (by omega))

theorem encode_spaces (n : Nat) : encode (Text.spaces n) = List.replicate n 32 := by
  induction n with
  | zero => rfl
  | succ n ih =>
    rw [Text.spaces, List.replicate_succ, encode, List.flatMap_cons, ← encode, ← Text.spaces, ih,
      List.replicate_succ]
    rfl

theorem sameFeed_spaces {bytes : Bytes} (h : Bytes.lineFeed ∉ bytes) :
    List.Forall₂ SameFeed bytes (List.replicate bytes.length 32) := by
  induction bytes with
  | nil => exact .nil
  | cons b bytes ih =>
    obtain ⟨hb, hbytes⟩ := not_or.1 (mt List.mem_cons.2 h)
    refine .cons ⟨fun heq => absurd heq.symm hb, fun heq => absurd heq (by decide)⟩ (ih hbytes)

theorem sameFeed_blankBytes (text : Text) :
    List.Forall₂ SameFeed (encode text) (encode (blankBytes text)) := by
  induction text with
  | nil => exact .nil
  | cons c text ih =>
    rw [encode, List.flatMap_cons, ← encode, blankBytes, List.flatMap_cons, ← blankBytes,
      encode_append]
    refine List.rel_append ?_ ih
    by_cases hc : c = '\n'
    · rw [if_pos hc, hc]
      exact forall₂_sameFeed_refl _
    · rw [if_neg hc, encode_spaces]
      exact sameFeed_spaces (mt eq_newline_of_mem hc)

theorem getElem?_sameFeed {a b : Bytes} (h : List.Forall₂ SameFeed a b) (i : Nat) :
    a[i]? = some Bytes.lineFeed ↔ b[i]? = some Bytes.lineFeed := by
  induction h generalizing i with
  | nil => rfl
  | cons hfirst _ ih =>
    cases i with
    | zero => simpa [SameFeed] using hfirst
    | succ i => simpa using ih i

theorem pointAt_sameFeed {a b : Bytes} (h : List.Forall₂ SameFeed a b) (offset : Nat) :
    Bytes.pointAt offset a = Bytes.pointAt offset b := by
  have hbefore := List.forall₂_take offset h
  have hcount {a b : Bytes} (h : List.Forall₂ SameFeed a b) :
      a.count Bytes.lineFeed = b.count Bytes.lineFeed := by
    induction h with
    | nil => rfl
    | cons hfirst _ ih =>
      rw [List.count_cons, List.count_cons, ih]
      simp only [beq_iff_eq, hfirst.eq]
  have hsince {a b : Bytes} (h : List.Forall₂ SameFeed a b) :
      (a.takeWhile (· ≠ Bytes.lineFeed)).length = (b.takeWhile (· ≠ Bytes.lineFeed)).length := by
    induction h with
    | nil => rfl
    | @cons x y _ _ hfirst _ ih =>
      rw [List.takeWhile_cons, List.takeWhile_cons]
      by_cases hx : x = Bytes.lineFeed
      · simp [hx, hfirst.1 hx]
      · simpa [hx, mt hfirst.2 hx] using ih
  rw [Bytes.pointAt, Bytes.pointAt]
  simp only [hcount hbefore, hsince (List.forall₂_reverse_iff.2 hbefore), hbefore.length_eq]

/-! ## How use rules lie in a text -/

/-- The offset just after the last byte of a use rule. -/
def UseRule.stopByte (rule : UseRule) : Nat := rule.startByte + size rule.statement

/-- The rule of a statement that stands behind `front`. -/
def ruleAt (front statement : Text) : UseRule :=
  { startByte := size front
    point := Bytes.pointAt (size front) (encode front)
    source := (quotedArgument.find? statement).map (·.group 1)
    statement }

theorem size_append_sub (front : Text) {piece : Text} {i : Nat} (h : size piece ≤ i) :
    size (front ++ piece) + (i - size piece) = size front + i := by
  rw [size_append]
  omega

theorem stopByte_ruleAt (front statement : Text) :
    (ruleAt front statement).stopByte = size front + size statement := rfl

theorem size_blankBytes (text : Text) : size (blankBytes text) = size text :=
  (sameFeed_blankBytes text).length_eq.symm

/-- The rules of a text that stands behind `front`, and the masked text: between parts that are kept
lie statements, which are blanked out. -/
inductive Laid : Text → Text → List UseRule → Text → Prop
  | nil (front : Text) : Laid front [] [] []
  | keep {front gap text masked : Text} {rules : List UseRule} :
      Laid (front ++ gap) text rules masked → Laid front (gap ++ text) rules (gap ++ masked)
  | rule {front statement text masked : Text} {rules : List UseRule} : statement ≠ [] →
      Laid (front ++ statement) text rules masked →
      Laid front (statement ++ text) (ruleAt front statement :: rules) (blankBytes statement ++ masked)

theorem laid_mask (text : Text) :
    ∀ front, Laid front text ((useMatchesFrom front.length text).map (useRuleOf (front ++ text)))
      (maskAt front.length text) := by
  induction text using sheet_induction with
  | nil => exact .nil
  | comment k rest hk ih =>
    intro front
    have hlater := ih (front ++ k)
    rw [List.length_append, List.append_assoc] at hlater
    rw [useMatchesFrom_comment hk, maskAt_comment hk]
    exact hlater.keep
  | rule t x rest hx hlength hsearch ih =>
    intro front
    have hlater := ih (front ++ t)
    rw [List.length_append, List.append_assoc] at hlater
    have hne : t ≠ [] := by
      rw [← List.length_pos_iff, hlength, List.length_pos_iff]
      exact finds_useStatement.ne_nil hx
    have hrule : useRuleOf (front ++ (t ++ rest)) ⟨front.length, x, []⟩ = ruleAt front t := by
      simp only [useRuleOf, List.take_left, List.drop_left, ← hlength]
      rfl
    rw [useMatchesFrom_rule hx hlength hsearch, maskAt_rule hx hlength hsearch, List.map_cons, hrule]
    exact hlater.rule hne
  | char c rest hcomment huse ih =>
    intro front
    have hlater := ih (front ++ [c])
    rw [List.length_append, List.append_assoc] at hlater
    rw [useMatchesFrom_char hcomment huse, maskAt_char hcomment huse]
    exact hlater.keep

namespace Laid

variable {front text masked : Text} {rules : List UseRule}

theorem sameFeed (h : Laid front text rules masked) :
    List.Forall₂ SameFeed (encode text) (encode masked) := by
  induction h with
  | nil front => exact .nil
  | keep _ ih =>
    rw [encode_append, encode_append]
    exact List.rel_append (forall₂_sameFeed_refl _) ih
  | rule _ _ ih =>
    rw [encode_append, encode_append]
    exact List.rel_append (sameFeed_blankBytes _) ih

theorem ordered (h : Laid front text rules masked) :
    rules.Pairwise (fun a b => a.stopByte ≤ b.startByte)
      ∧ ∀ rule ∈ rules, size front ≤ rule.startByte ∧ rule.startByte < rule.stopByte := by
  induction h with
  | nil front => simp
  | keep _ ih =>
    refine ⟨ih.1, fun rule hrule => ?_⟩
    obtain ⟨hstart, hstop⟩ := ih.2 rule hrule
    rw [size_append] at hstart
    exact ⟨by omega, hstop⟩
  | @rule front statement text masked rules hne _ ih =>
    have hpos := size_pos hne
    obtain ⟨hpairs, hall⟩ := ih
    have hlater : ∀ rule ∈ rules, (ruleAt front statement).stopByte ≤ rule.startByte := by
      intro rule hrule
      obtain ⟨hstart, -⟩ := hall rule hrule
      rw [size_append] at hstart
      exact hstart
    refine ⟨List.pairwise_cons.2 ⟨hlater, hpairs⟩, List.forall_mem_cons.2 ⟨⟨Nat.le_refl _, ?_⟩, ?_⟩⟩
    · exact Nat.lt_add_of_pos_right hpos
    · intro rule hrule
      obtain ⟨hstart, hstop⟩ := hall rule hrule
      rw [size_append] at hstart
      exact ⟨by omega, hstop⟩

theorem outside (h : Laid front text rules masked) :
    ∀ i, (∀ rule ∈ rules, ¬(rule.startByte ≤ size front + i ∧ size front + i < rule.stopByte)) →
      (encode masked)[i]? = (encode text)[i]? := by
  induction h with
  | nil front => exact fun _ _ => rfl
  | @keep front gap text masked rules _ ih =>
    intro i hi
    rw [encode_append, encode_append]
    by_cases hgap : i < size gap
    · rw [List.getElem?_append_left hgap, List.getElem?_append_left hgap]
    · have hge : size gap ≤ i := by omega
      rw [List.getElem?_append_right hge, List.getElem?_append_right hge]
      apply ih
      intro rule hrule
      rw [← size, size_append_sub front hge]
      exact hi rule hrule
  | @rule front statement text masked rules hne _ ih =>
    intro i hi
    obtain ⟨hhere, hlater⟩ := List.forall_mem_cons.1 hi
    -- the offset is not in the statement, so it lies behind it
    have hge : size statement ≤ i := by
      by_contra hlt
      exact hhere ⟨Nat.le_add_right .., by rw [stopByte_ruleAt]; omega⟩
    have hge' : size (blankBytes statement) ≤ i := by rwa [size_blankBytes]
    rw [encode_append, encode_append, List.getElem?_append_right hge',
      List.getElem?_append_right hge, ← size, ← size, size_blankBytes]
    apply ih
    intro rule hrule
    rw [size_append_sub front hge]
    exact hlater rule hrule

theorem placed (h : Laid front text rules masked) : ∀ rule ∈ rules,
    ∃ before after before' after', text = before ++ (rule.statement ++ after)
      ∧ masked = before' ++ (blankBytes rule.statement ++ after') ∧ size before' = size before
      ∧ rule = ruleAt (front ++ before) rule.statement := by
  induction h with
  | nil front => simp
  | @keep front gap text masked rules _ ih =>
    intro rule hrule
    obtain ⟨before, after, before', after', rfl, rfl, hsize, heq⟩ := ih rule hrule
    refine ⟨gap ++ before, after, gap ++ before', after', by simp, by simp, ?_, ?_⟩
    · rw [size_append, size_append, hsize]
    · rwa [← List.append_assoc]
  | @rule front statement text masked rules hne _ ih =>
    refine List.forall_mem_cons.2 ⟨⟨[], text, [], masked, rfl, rfl, rfl, by rw [List.append_nil]; rfl⟩, ?_⟩
    intro rule hrule
    obtain ⟨before, after, before', after', rfl, rfl, hsize, heq⟩ := ih rule hrule
    refine ⟨statement ++ before, after, blankBytes statement ++ before', after', by simp, by simp,
      ?_, ?_⟩
    · rw [size_append, size_append, hsize, size_blankBytes]
    · rwa [← List.append_assoc]

end Laid

/-! ## Comments -/

theorem length_searchable (text : Text) : (searchable text).length = text.length := by
  induction text using piece_induction finds_comment.ne_nil with
  | nil => rfl
  | take k rest hk ih => simp [searchable_comment hk, blankChars, ih]
  | pass c rest hc ih => simp [searchable_char hc, ih]

theorem filler_of_comment {text : Text} {found : Match} :
    ∀ {offset : Nat}, found ∈ comment.matchesFrom offset text →
      ∀ i, found.start ≤ offset + i → offset + i < found.stop →
        ∃ c, (searchable text)[i]? = some c ∧ IsFiller c := by
  induction text using piece_induction finds_comment.ne_nil with
  | nil => simp [matchesFrom, findAllFrom]
  | take k rest hk ih =>
    intro offset h i hstart hstop
    have hlength : (blankChars k).length = k.length := List.length_map ..
    rw [finds_comment.matchesFrom_piece hk] at h
    rw [searchable_comment hk]
    rcases List.mem_cons.1 h with rfl | h
    · have hi : i < (blankChars k).length := by
        rw [hlength]
        simp only [Match.stop] at hstop
        omega
      rw [List.getElem?_append_left hi, List.getElem?_eq_getElem hi]
      exact ⟨_, rfl, isFiller_blankChars k _ (List.getElem_mem hi)⟩
    · obtain ⟨front, _, -, hfound, -⟩ := finds_comment.mem_matchesFrom h
      have hge : (blankChars k).length ≤ i := by omega
      rw [List.getElem?_append_right hge, hlength]
      exact ih h (i - k.length) (by omega) (by omega)
  | pass c rest hc ih =>
    intro offset h i hstart hstop
    rw [finds_comment.matchesFrom_char hc] at h
    obtain ⟨front, _, -, hfound, -⟩ := finds_comment.mem_matchesFrom h
    obtain ⟨i, rfl⟩ : ∃ n, i = n + 1 := ⟨i - 1, by omega⟩
    rw [searchable_char hc, List.getElem?_cons_succ]
    exact ih h i (by omega) (by omega)

theorem ends_of_use {text : Text} {found : Match} (h : found ∈ useMatches text) :
    found.start < found.stop ∧ found.stop ≤ text.length
      ∧ (searchable text)[found.start]? = some '@' ∧ (searchable text)[found.stop - 1]? = some ';' := by
  obtain ⟨front, rest, htext, hstart, z, hfound, -⟩ := finds_useStatement.mem_matchesFrom h
  rw [Nat.zero_add] at hstart
  have hlength := length_searchable text
  have hsize : found.text.length = z.length + 5 := by simp [hfound, keyword]
  rw [searchable, htext, List.length_append, List.length_append] at hlength
  refine ⟨by rw [Match.stop]; omega, by rw [Match.stop]; omega, ?_, ?_⟩
  · rw [searchable, htext, hstart, hfound]
    simp [keyword]
  · have hlast : found.stop - 1 = (front ++ keyword ++ z).length := by
      rw [Match.stop, hstart, hsize, List.length_append, List.length_append, keyword]
      simp
      omega
    have hsplit : front ++ (found.text ++ rest) = (front ++ keyword ++ z) ++ ';' :: rest := by
      simp [hfound]
    rw [searchable, htext, hlast, hsplit, List.getElem?_append_right (Nat.le_refl _), Nat.sub_self]
    rfl

theorem not_in_comment {text : Text} {found : Match} (hfound : found ∈ useMatches text)
    {inner : Match} (hinner : inner ∈ comment.findAll text) :
    ¬(inner.start ≤ found.start ∧ found.start < inner.stop)
      ∧ ¬(inner.start < found.stop ∧ found.stop ≤ inner.stop) := by
  obtain ⟨hlt, -, hfirst, hlast⟩ := ends_of_use hfound
  have hfound' : inner ∈ comment.matchesFrom 0 text := hinner
  -- a comment is blank throughout, but neither the sign nor the semicolon is
  have hblank (i : Nat) (hstart : inner.start ≤ i) (hstop : i < inner.stop) :
      ∃ c, (searchable text)[i]? = some c ∧ IsFiller c :=
    filler_of_comment hfound' i (by omega) (by omega)
  constructor
  · rintro ⟨hstart, hstop⟩
    obtain ⟨c, hc, hfiller⟩ := hblank _ hstart hstop
    obtain rfl := Option.some.inj (hfirst.symm.trans hc)
    simp [IsFiller] at hfiller
  · rintro ⟨hstart, hstop⟩
    obtain ⟨c, hc, hfiller⟩ := hblank (found.stop - 1) (by omega) (by omega)
    obtain rfl := Option.some.inj (hlast.symm.trans hc)
    simp [IsFiller] at hfiller

/-! ## In bytes -/

theorem size_take_mono (text : Text) {i j : Nat} (h : i ≤ j) :
    size (text.take i) ≤ size (text.take j) := by
  obtain ⟨n, rfl⟩ := Nat.exists_eq_add_of_le h
  rw [List.take_add, size_append]
  omega

theorem size_take_strict (text : Text) {i j : Nat} (h : i < j) (hi : i < text.length) :
    size (text.take i) < size (text.take j) := by
  obtain ⟨n, rfl⟩ := Nat.exists_eq_add_of_lt h
  have hne : (text.drop i).take (n + 1) ≠ [] := by
    simp
    omega
  have hpos := size_pos hne
  rw [Nat.add_assoc, List.take_add, size_append]
  omega

theorem stopByte_useRuleOf (text : Text) (found : Match) :
    (useRuleOf text found).stopByte = size (text.take found.stop) := by
  rw [Match.stop, List.take_add, size_append]
  rfl

/-- The offsets of the first byte of every comment and of the byte just after it. -/
def commentSpans (text : Text) : List (Nat × Nat) :=
  (comment.findAll text).map fun found => (size (text.take found.start), size (text.take found.stop))

/-- Whether the first or the last byte of a rule lies in a span. -/
def UseRule.EndsIn (rule : UseRule) (span : Nat × Nat) : Prop :=
  (span.1 ≤ rule.startByte ∧ rule.startByte < span.2)
    ∨ (span.1 < rule.stopByte ∧ rule.stopByte ≤ span.2)

theorem not_endsIn_comment {text : Text} {rule : UseRule} (hrule : rule ∈ useRules text) :
    ∀ span ∈ commentSpans text, ¬rule.EndsIn span := by
  intro span hspan
  obtain ⟨found, hfound, rfl⟩ := List.mem_map.1 hrule
  obtain ⟨inner, hinner, rfl⟩ := List.mem_map.1 hspan
  obtain ⟨hlt, hle, -⟩ := ends_of_use hfound
  obtain ⟨hstarts, hstops⟩ := not_in_comment hfound hinner
  have hstart : (useRuleOf text found).startByte = size (text.take found.start) := rfl
  rw [UseRule.EndsIn, hstart, stopByte_useRuleOf]
  -- the order of two offsets in bytes is their order in characters
  rintro (⟨hlow, hhigh⟩ | ⟨hlow, hhigh⟩)
  · refine hstarts ⟨?_, ?_⟩
    · by_contra hout
      have := size_take_strict text (Nat.lt_of_not_le hout) (by omega)
      omega
    · by_contra hout
      have := size_take_mono text (Nat.le_of_not_lt hout)
      omega
  · refine hstops ⟨?_, ?_⟩
    · by_contra hout
      have := size_take_mono text (Nat.le_of_not_lt hout)
      omega
    · by_contra hout
      have := size_take_strict text (Nat.lt_of_not_le hout) (by omega)
      omega

/-- Whether a rule points to a piece of a source: its bytes spell the piece, and its point is that of
its first byte. -/
def UseRule.PointsTo (rule : UseRule) (piece source : Text) : Prop :=
  Bytes.slice rule.startByte rule.stopByte (encode source) = encode piece
    ∧ Bytes.pointAt rule.startByte (encode source) = rule.point

theorem laid_useRules (text : Text) : Laid [] text (useRules text) (mask text) := by
  rw [useRules, useMatches_eq, mask_eq]
  exact laid_mask text []

theorem pointsTo_of_mem {text : Text} {rule : UseRule} (h : rule ∈ useRules text) :
    rule.PointsTo rule.statement text ∧ rule.PointsTo (blankBytes rule.statement) (mask text) := by
  have hlaid := laid_useRules text
  obtain ⟨before, after, before', after', htext, hmask, hsize, hrule⟩ := hlaid.placed rule h
  rw [List.nil_append] at hrule
  have hstart : rule.startByte = size before := by rw [hrule]; rfl
  have hhere : rule.point = Bytes.pointAt (size before) (encode before) := by rw [hrule]; rfl
  have hpoint : Bytes.pointAt rule.startByte (encode text) = rule.point := by
    have hfront : (encode text).take (size before) = encode before := by
      rw [htext, encode_append, size, List.take_left]
    rw [hstart, hhere, Bytes.pointAt, Bytes.pointAt, hfront, size, List.take_length]
  have hmasked : Bytes.pointAt rule.startByte (encode (mask text)) = rule.point :=
    (pointAt_sameFeed hlaid.sameFeed _).symm.trans hpoint
  have hslice := slice_encode before rule.statement after
  have hslice' := slice_encode before' (blankBytes rule.statement) after'
  rw [← htext, ← hstart] at hslice
  rw [← hmask, size_blankBytes, hsize, ← hstart] at hslice'
  exact ⟨⟨hslice, hpoint⟩, hslice', hmasked⟩

/-- The masked text has as many bytes as the text, line feeds at the same offsets, and the same bytes
outside the use rules. The rules come in order and do not overlap. Each starts and ends outside
comments, and its offsets and its point are those of its statement in the text and of the blanked
statement in the masked text. The masked text has no rules and is left as it is. -/
theorem mask_keeps_positions (text : Text) :
    size (mask text) = size text
      ∧ (∀ i : Nat, (encode (mask text))[i]? = some Bytes.lineFeed
        ↔ (encode text)[i]? = some Bytes.lineFeed)
      ∧ (∀ i : Nat, (∀ rule ∈ useRules text, ¬(rule.startByte ≤ i ∧ i < rule.stopByte)) →
        (encode (mask text))[i]? = (encode text)[i]?)
      ∧ (useRules text).Pairwise (fun a b => a.stopByte ≤ b.startByte)
      ∧ (∀ rule ∈ useRules text, rule.startByte < rule.stopByte
        ∧ (∀ span ∈ commentSpans text, ¬rule.EndsIn span)
        ∧ rule.PointsTo rule.statement text
        ∧ rule.PointsTo (blankBytes rule.statement) (mask text))
      ∧ mask (mask text) = mask text ∧ useRules (mask text) = [] := by
  have hlaid := laid_useRules text
  obtain ⟨hpairs, hall⟩ := hlaid.ordered
  have hnone : useMatches (mask text) = [] := (overlaid_maskAt text 0).2.2 0
  refine ⟨hlaid.sameFeed.length_eq.symm, fun i => (getElem?_sameFeed hlaid.sameFeed i).symm, ?_,
    hpairs, ?_, by rw [mask, hnone]; rfl, by rw [useRules, hnone]; rfl⟩
  · intro i hi
    refine hlaid.outside i fun rule hrule => ?_
    have hshift : size [] + i = i := Nat.zero_add i
    rw [hshift]
    exact hi rule hrule
  · intro rule hrule
    obtain ⟨-, htaken⟩ := hall rule hrule
    exact ⟨htaken, not_endsIn_comment hrule, pointsTo_of_mem hrule⟩

end SourceLens.Stylesheet
