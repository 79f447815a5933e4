import SourceLens.Proofs.Indented.Headers
import SourceLens.Proofs.Indented.Looks

/-!
# Lines at rest

A line at the column of its depth is at rest: shifting it again leaves it as it is, because its
statement is no longer shifted (`shift_shift`). A reader of rendered lines has the same statements
due, at the columns of their depths, so that rendered lines look the same when they are rendered
again (`looks_rendered`).
-/

namespace SourceLens.Indented

open Text (Widens)

/-! ## One line -/

theorem trim_trim (text : Text) : Text.trim (Text.trim text) = Text.trim text := by
  obtain ⟨u, v, hu, hv, htext⟩ := Text.trim_spec text
  have hagain := Text.trim_append hu hv (Text.trim text)
  rw [← htext] at hagain
  exact hagain.symm

theorem tab_not_mem_body (line : PhysicalLine) : '\t' ∉ line.body := by
  have hnone : '\t' ∉ Text.expandTabs line.text := Text.tab_not_mem_expandTabsFrom 0 line.text
  rw [PhysicalLine.body]
  split_ifs
  · exact mt Text.mem_trimStart hnone
  · exact mt Text.mem_trim hnone

theorem body_spaces_append {line line' : PhysicalLine} (n : Nat)
    (hend : line'.endsInLiteral = line.endsInLiteral)
    (htext : line'.text = Text.spaces n ++ line.body) : line'.body = line.body := by
  have hnone : '\t' ∉ Text.spaces n ++ line.body := by
    simp [Text.spaces, tab_not_mem_body line]
  have hexpand : Text.expandTabs line'.text = Text.spaces n ++ line.body := by
    rw [htext, Text.expandTabs, expandTabsFrom_of_not_mem hnone]
  rw [PhysicalLine.body, hend, hexpand]
  split_ifs with hopen
  · rw [Text.trimStart_append (Text.allBlank_spaces n), trimStart_body]
  · have htrim := Text.trim_append (Text.allBlank_spaces n) (v := []) rfl line.body
    rw [List.append_nil] at htrim
    rw [htrim, PhysicalLine.body, if_neg hopen, trim_trim]

/-- A line that was shifted with its statement stays where it is once the statement stands at the
column of its depth. -/
theorem shift_shift {width : Nat} {first again : Due} {line line' : PhysicalLine}
    (hlevel : again.2 = first.2) (hindent : again.1.indent = first.2 * width)
    (hstart : line'.startsInLiteral = line.startsInLiteral)
    (hend : line'.endsInLiteral = line.endsInLiteral) (htext : line'.text = first.shift width line) :
    again.shift width line' = line'.text := by
  cases hcode : line.startsInLiteral with
  | true => rw [Due.shift, if_pos (hstart.trans hcode)]
  | false =>
    rw [Due.shift, if_neg (by simp [hcode])] at htext
    rw [Due.shift, if_neg (by simp [hstart, hcode])]
    by_cases hempty : line.body.isEmpty = true
    · rw [if_pos hempty] at htext
      have hblank : line'.body = [] := body_eq_nil.2 (by rw [htext]; rfl)
      rw [hblank, htext]
      rfl
    · rw [if_neg hempty] at htext
      obtain ⟨c, rest, hhead⟩ := List.exists_cons_of_ne_nil (mt List.isEmpty_iff.2 hempty)
      rw [body_spaces_append _ hend htext, if_neg hempty, htext,
        indentation_spaces_append hhead (isBlank_head_body hhead), hlevel, hindent]
      congr 2
      omega

theorem moved_moved (column : Nat) (text : Text) :
    moved column (moved column text) = moved column text := by
  by_cases hempty : (Text.trim text).isEmpty = true
  · have hnil : moved column text = [] := if_pos hempty
    rw [hnil]
    rfl
  · have hmoved : moved column text = Text.spaces column ++ Text.trim text := if_neg hempty
    have htrim := Text.trim_append (Text.allBlank_spaces column) (v := []) rfl (Text.trim text)
    rw [List.append_nil, trim_trim] at htrim
    rw [hmoved, moved, htrim, if_neg hempty]

/-! ## Rendering rendered lines -/

/-- A statement that restates a logical line, at the same depth, which is that of the left margin
exactly if the line stands there. -/
structure Again (width : Nat) (placed : Placed) (again : Due) : Prop where
  level : again.2 = placed.2
  restated : Restated width placed again.1
  margin : placed.1.indent = 0 ↔ placed.2 = 0

theorem Again.isTopLevel {width : Nat} (hwidth : 1 ≤ width) {placed : Placed} {again : Due}
    (h : Again width placed again) : again.1.isTopLevel = placed.1.statement.isTopLevel := by
  obtain ⟨-, ⟨hindent, hcode⟩, hmargin⟩ := h
  have hzero : decide (again.1.indent = 0) = decide (placed.1.indent = 0) := by
    rw [decide_eq_decide, hindent, hmargin, Nat.mul_eq_zero]
    omega
  have hat (text : Text) : Text.startsWith ['@'] text = true ↔ ∃ rest, text = '@' :: rest := by
    cases text with
    | nil => simp [Text.startsWith]
    | cons c rest => simp [Text.startsWith, @eq_comm _ '@']
  have hdecorator : Text.startsWith ['@'] again.1.code = Text.startsWith ['@'] placed.1.code := by
    rw [Bool.eq_iff_iff, hat, hat]
    constructor
    · rintro ⟨rest, hrest⟩
      obtain ⟨rest', hrest', -⟩ := Widens.of_cons_right (by decide) (hrest ▸ hcode)
      exact ⟨rest', hrest'⟩
    · rintro ⟨rest, hrest⟩
      obtain ⟨rest', hrest', -⟩ := Widens.of_cons (by decide) (hrest ▸ hcode)
      exact ⟨rest', hrest'⟩
  rw [Statement.isTopLevel, Statement.isTopLevel, LogicalLine.statement, hzero, hdecorator,
    isDefinition, isDefinition, isDef_widens hcode, isClass_widens hcode]

theorem CurrentFollows.isSome {width : Nat} {suffix : List Placed} {c : Option LogicalLine}
    {s : Option Statement} (h : CurrentFollows width suffix c s) : s.isSome = c.isSome := by
  cases c <;> cases s <;> first | rfl | exact h.elim

theorem look_again {width : Nat} (hwidth : 1 ≤ width) {suffix : List Placed} {pending : Pending}
    {reader : Reader} (hfollows : Follows width suffix pending reader) {text : Text}
    {rendered : Rendered} (hfine : (pending.reader.feed text).2.2 = true)
    (hline : LineFollows width suffix pending text rendered)
    (hlook : rendered.look = pending.reader.look width (suffix.map due) text) {again : List Due}
    (hagain : List.Forall₂ (Again width) suffix again) :
    reader.look width again rendered.text = rendered.look := by
  obtain ⟨hopen, -, -, -, hpiece⟩ :=
    feed_readAlike hfollows.literal hfollows.brackets hline.alike hfine
  have hcurrent : reader.current.isNone = pending.reader.current.isNone := by
    have hboth := hfollows.current.isSome
    rw [Pending.reader, Option.isNone_map, ← Option.not_isSome, hboth, Option.not_isSome]
  have hunderway : (reader.underway rendered.text).isSome = (pending.reader.underway text).isSome := by
    rw [underway_reader pending 0, Option.isSome_map]
    exact (underway_follows hfollows.current hpiece hline.first).isSome
  have htext : rendered.text = pending.reader.lookText width text (suffix.map due) :=
    congrArg Look.text hlook
  have hmeet : (reader.meet rendered.text).startsInLiteral = (pending.reader.meet text).startsInLiteral
      ∧ (reader.meet rendered.text).endsInLiteral = (pending.reader.meet text).endsInLiteral := by
    rw [Reader.feed_eq, Reader.feed_eq] at hopen
    exact ⟨congrArg Option.isSome hfollows.literal, congrArg Option.isSome hopen⟩
  have hsame : reader.lookText width rendered.text again = rendered.text
      ∧ again.head?.any (·.1.isTopLevel) = (suffix.map due).head?.any (·.1.isTopLevel) := by
    cases hagain with
    | nil =>
      refine ⟨?_, rfl⟩
      rw [htext]
      exact moved_moved 0 text
    | @cons placed first more later hfirst _ =>
      refine ⟨?_, hfirst.isTopLevel hwidth⟩
      rw [List.map_cons, Reader.lookText] at htext
      rw [Reader.lookText, hunderway]
      by_cases hbusy : (pending.reader.underway text).isSome = true
      · rw [if_pos hbusy] at htext ⊢
        exact shift_shift hfirst.level hfirst.restated.1 hmeet.1 hmeet.2 htext
      · rw [if_neg hbusy] at htext ⊢
        rw [htext, hfirst.level]
        exact moved_moved ..
  rw [hlook, Reader.look, Reader.look, hsame.1, hsame.2, hunderway, hcurrent, hfollows.literal, htext]

/-- Rendered lines look the same when they are rendered again. -/
theorem looks_rendered {width : Nat} (hwidth : 1 ≤ width) (texts : List Text) :
    ∀ {pending : Pending} {i : Nat} {reader : Reader} {done suffix : List Placed}
      {lines : List Rendered} {again : List Due},
      suffix.map (·.1) = (scanFrom pending i texts).logical →
      (scanFrom pending i texts).diagnostics = [] →
      (∀ p ∈ done, p.1.stop < i) →
      Renders width (done ++ suffix) i (scanFrom pending i texts).physical lines →
      lines.map Rendered.look = pending.reader.looks width (suffix.map due) texts →
      Follows width suffix pending reader → pending.Sound i →
      List.Forall₂ (Again width) suffix again →
      reader.looks width again (lines.map (·.text)) = lines.map Rendered.look := by
  induction texts with
  | nil =>
    intro pending i reader done suffix lines again _ _ _ hlines _ _ _ _
    obtain rfl : lines = [] := hlines
    rfl
  | cons text rest ih =>
    intro pending i reader done suffix lines again hsuffix hdiagnostics hdone hlines hlooks hfollows
      hsound hagain
    obtain ⟨hfine, hlater⟩ := fine_of_scanFrom_cons hdiagnostics
    rw [scanFrom_cons, Scan.append, feed_physical] at hlines
    obtain ⟨first, more, rfl, hfirst, hmore⟩ := hlines
    have hline := hfirst.follows hsuffix hdone hsound hfine
    obtain ⟨complete, later, hcut, hlogical, hstops, hrestated, -, hnext⟩ :=
      hfollows.feed hsuffix hfine hline
    obtain ⟨complete', later', hcut', -, hlogical', -, hcount⟩ := split_suffix hsuffix
    -- both ways to cut the lines to come leave as many for the rest
    have hlength : later.length = later'.length := by
      rw [← List.length_map (·.1), hlogical, ← hlogical', List.length_map]
    obtain ⟨rfl, rfl⟩ := List.append_inj' (hcut.symm.trans hcut') hlength
    subst hcut
    rw [List.map_cons, Reader.looks] at hlooks
    obtain ⟨hlook, hlooks⟩ := List.cons.inj hlooks
    have hdues : ((complete ++ later).map due).drop (pending.reader.feed text).2.1.length
        = later.map due := by
      rw [List.map_append, ← hcount]
      exact List.drop_left' (List.length_map ..)
    rw [hdues, ← (feed_reader pending i text).1] at hlooks
    have hrest : List.Forall₂ (Again width) later
        (again.drop (reader.feed first.text).2.1.length) := by
      have hdrop := List.forall₂_drop complete.length hagain
      rwa [List.drop_left, hrestated.length_eq] at hdrop
    rw [← List.append_assoc] at hmore
    rw [List.map_cons, Reader.looks, look_again hwidth hfollows hfine hline hlook hagain,
      ih hlogical hlater (stops_above hdone hstops) hmore hlooks hnext (hsound.feed text) hrest]
    rfl

end SourceLens.Indented
