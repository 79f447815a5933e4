import Mathlib.Data.List.DropRight
import SourceLens.Proofs.Text.Ascii
import SourceLens.Proofs.Tree.Faults
import SourceLens.Script.Format

/-!
# Sealed nodes under formatting

Formatting copies bytes of the source and puts spaces between them. `origins` says of each byte that
is written which byte of the source it is, if any. The copied bytes are those that are not lost, in
order (`origins_kept`), and a stretch inside sealed nodes of which none is lost is copied as one piece
(`infix_of_kept`). What is lost are blanks at the ends of lines that do not start inside a sealed
node, and these can belong to one: to a template or a comment that ends its first line with a blank.
-/

namespace SourceLens.Script

open Bytes Utf8

/-! ## Lines -/

def Cell.feeds (cell : Cell) : Bool := cell.byte = lineFeed

/-- How a source is cut into lines. -/
inductive Lines : List Cell → List CellLine → Prop
  | last {body : List Cell} (h : ∀ c ∈ body, c.feeds = false) : Lines body [{ body, feed := none }]
  | line {body rest : List Cell} {feed : Cell} {lines : List CellLine}
    (h : ∀ c ∈ body, c.feeds = false) (hfeed : feed.feeds = true) (hrest : Lines rest lines) :
    Lines (body ++ feed :: rest) ({ body, feed := some feed } :: lines)

theorem lines_cellLines (cells : List Cell) : Lines cells (cellLines cells) := by
  induction cells with
  | nil => exact .last (List.forall_mem_nil _)
  | cons cell rest ih =>
    rw [cellLines]
    split_ifs with hfeed
    · have hfeed : cell.feeds = true := decide_eq_true hfeed
      exact (Lines.line (List.forall_mem_nil _) hfeed ih : Lines ([] ++ cell :: rest) _)
    · have hbody : cell.feeds = false := decide_eq_false hfeed
      revert ih
      generalize cellLines rest = lines
      rintro (h | ⟨h, hfeed', hrest⟩)
      · exact .last (List.forall_mem_cons.2 ⟨hbody, h⟩)
      · exact .line (List.forall_mem_cons.2 ⟨hbody, h⟩) hfeed' hrest

def Cell.blank (cell : Cell) : Bool := isBlankByte cell.byte

def lead (before : Option Cell) (line : CellLine) : List Cell :=
  if continues before line then [] else line.body.takeWhile Cell.blank

/-- What a line keeps. -/
def kept (before : Option Cell) (line : CellLine) : List Cell :=
  if continues before line then line.body else (line.body.dropWhile Cell.blank).rdropWhile Cell.blank

def trail (before : Option Cell) (line : CellLine) : List Cell :=
  if continues before line then [] else (line.body.dropWhile Cell.blank).rtakeWhile Cell.blank

theorem body_eq (before : Option Cell) (line : CellLine) :
    line.body = lead before line ++ (kept before line ++ trail before line) := by
  rw [lead, kept, trail]
  split_ifs
  · simp
  · rw [List.rdropWhile_append_rtakeWhile, List.takeWhile_append_dropWhile]

/-- The number of spaces put in front of a line. -/
def margin (width depth : Nat) (before : Option Cell) (line : CellLine) : Nat :=
  let content := kept before line
  if continues before line || content.isEmpty then 0
  else width * (depth - (content.takeWhile fun cell => isCloserByte cell.byte).length)

theorem writeLine_eq (width depth : Nat) (before : Option Cell) (line : CellLine) :
    writeLine width depth before line
      = List.replicate (margin width depth before line) 32
        ++ (kept before line).map (·.byte) := by
  have htrim : trimBytes (line.body.map (·.byte))
      = ((line.body.dropWhile Cell.blank).rdropWhile Cell.blank).map (·.byte) := by
    rw [trimBytes, List.dropWhile_map, ← List.map_reverse, List.dropWhile_map, ← List.map_reverse]
    rfl
  rw [writeLine, margin, kept]
  by_cases hcontinues : continues before line = true
  · simp [hcontinues]
  · simp only [hcontinues, htrim, Bool.false_eq_true, if_false, Bool.false_or]
    generalize (line.body.dropWhile Cell.blank).rdropWhile Cell.blank = content
    cases content with
    | nil => rfl
    | cons cell content =>
      rw [List.takeWhile_map, List.length_map]
      rfl

theorem exists_cons_writeLines (width depth : Nat) (before : Option Cell) {cells : List Cell}
    {lines : List CellLine} (h : Lines cells lines) :
    ∃ next more, writeLines width depth before lines = next :: more := by
  cases h <;> exact ⟨_, _, rfl⟩

/-! ## Where the written bytes come from -/

/-- For each byte that is written of a line that starts at an offset, the offset that it is copied
from, or none if it was put in. -/
def lineOrigins (width depth : Nat) (before : Option Cell) (start : Nat) (line : CellLine) :
    List (Option Nat) :=
  List.replicate (margin width depth before line) none
    ++ (List.range' (start + (lead before line).length) (kept before line).length).map some

/-- For each byte that is written of lines that start at an offset, the offset that it is copied
from, or none if it was put in. -/
def origins (width : Nat) : Nat → Option Cell → Nat → List CellLine → List (Option Nat)
  | _, _, _, [] => []
  | depth, before, start, line :: rest =>
    lineOrigins width depth before start line
      ++ match line.feed with
        | none => []
        | some feed =>
          some (start + line.body.length)
            :: origins width (line.body.foldl depthAfter depth) feed
              (start + line.body.length + 1) rest

section Origins

variable {width depth start : Nat} {before : Option Cell} {body : List Cell}

theorem origins_last : origins width depth before start [{ body, feed := none }]
    = lineOrigins width depth before start { body, feed := none } := List.append_nil _

theorem origins_line {feed : Cell} {lines : List CellLine} :
    origins width depth before start ({ body, feed := some feed } :: lines)
      = lineOrigins width depth before start { body, feed := some feed }
        ++ some (start + body.length) :: origins width (body.foldl depthAfter depth) feed
          (start + body.length + 1) lines := rfl

end Origins

/-- The byte that is written for an origin. -/
def written (source : Bytes) : Option Nat → UInt8
  | none => 32
  | some i => source.getD i 0

theorem map_written_range' (front mid back : Bytes) :
    ((List.range' front.length mid.length).map some).map (written (front ++ (mid ++ back))) = mid := by
  apply List.ext_getElem
  · simp
  · intro i hi hmid
    simp [written, List.getElem?_append_right, List.getElem?_append_left hmid, hmid]

theorem intercalate_writeLines (width : Nat) {cells : List Cell} {lines : List CellLine}
    (h : Lines cells lines) :
    ∀ (front : Bytes) (depth : Nat) (before : Option Cell),
      List.intercalate [lineFeed] (writeLines width depth before lines)
        = (origins width depth before front.length lines).map
          (written (front ++ cells.map (·.byte))) := by
  -- the line itself, whatever comes after it
  have hline (front back : Bytes) (depth : Nat) (before : Option Cell) (line : CellLine) :
      (lineOrigins width depth before front.length line).map
          (written (front ++ (line.body.map (·.byte) ++ back)))
        = writeLine width depth before line := by
    have hsource : front ++ (line.body.map (·.byte) ++ back)
        = (front ++ (lead before line).map (·.byte)) ++ ((kept before line).map (·.byte)
          ++ ((trail before line).map (·.byte) ++ back)) := by
      conv_lhs => rw [body_eq before line]
      simp
    have hkept := map_written_range' (front ++ (lead before line).map (·.byte))
      ((kept before line).map (·.byte)) ((trail before line).map (·.byte) ++ back)
    rw [← hsource, List.length_append, List.length_map, List.length_map] at hkept
    rw [lineOrigins, List.map_append, hkept, writeLine_eq]
    simp [written]
  induction h with
  | @last body _ =>
    intro front depth before
    have hlast := hline front [] depth before ⟨body, none⟩
    rw [List.append_nil] at hlast
    rw [origins_last, hlast]
    simp [writeLines]
  | @line body rest feed lines _ hfeed hrest ih =>
    intro front depth before
    have hfirst := hline front (feed.byte :: rest.map (·.byte)) depth before ⟨body, some feed⟩
    have hlater := ih (front ++ (body.map (·.byte) ++ [feed.byte])) (body.foldl depthAfter depth)
      (some feed)
    obtain ⟨next, more, hnext⟩ :=
      exists_cons_writeLines width (body.foldl depthAfter depth) (some feed) hrest
    have hsource : front ++ (body.map (·.byte) ++ [feed.byte]) ++ rest.map (·.byte)
        = front ++ (body ++ feed :: rest).map (·.byte) := by simp
    have hlength : (front ++ (body.map (·.byte) ++ [feed.byte])).length
        = front.length + body.length + 1 := by simp [Nat.add_assoc]
    have hsource' : front ++ (body.map (·.byte) ++ feed.byte :: rest.map (·.byte))
        = front ++ (body ++ feed :: rest).map (·.byte) := by simp
    have hfeedAt : written (front ++ (body ++ feed :: rest).map (·.byte))
        (some (front.length + body.length)) = lineFeed := by
      simpa [written] using of_decide_eq_true hfeed
    rw [hsource, hlength, hnext] at hlater
    rw [hsource'] at hfirst
    generalize front ++ (body ++ feed :: rest).map (·.byte) = source at hfirst hlater hfeedAt
    rw [writeLines, hnext, List.intercalate_cons_cons, hlater, origins_line, List.map_append,
      List.map_cons, hfeedAt, hfirst, List.append_assoc, List.singleton_append]

/-! ## What is lost -/

/-- The part of its line in front of an offset. -/
def lineFront (cells : List Cell) (i : Nat) : List Cell := (cells.take i).rtakeWhile (! ·.feeds)

def lineRest (cells : List Cell) (i : Nat) : List Cell := (cells.drop i).takeWhile (! ·.feeds)

/-- Whether an offset and the one before it are inside sealed nodes. -/
def startsInside (cells : List Cell) (i : Nat) : Bool :=
  (cells.take i).getLast?.any (·.inside) && (cells.drop i).head?.any (·.inside)

/-- Whether an offset holds a blank at an end of its line, and the line does not start inside a sealed
node. -/
def lost (cells : List Cell) (i : Nat) : Bool :=
  let front := lineFront cells i
  let rest := lineRest cells i
  !startsInside cells (i - front.length) && !rest.isEmpty
    && (rest.all Cell.blank || (front ++ rest.take 1).all Cell.blank)

/-- In a list with margins to be trimmed, something that is not trimmed stands on both sides of a place,
exactly if the place is between the margins. -/
theorem between_iff {α : Type} {p : α → Bool} {front mid back : List α} {k : Nat}
    (hfront : ∀ x ∈ front, p x = true) (hback : ∀ x ∈ back, p x = true)
    (hfirst : ∀ x ∈ mid.head?, p x = false) (hlast : ∀ x ∈ mid.getLast?, p x = false) :
    (((front ++ (mid ++ back)).drop k).all p || ((front ++ (mid ++ back)).take (k + 1)).all p) = false
      ↔ front.length ≤ k ∧ k < front.length + mid.length := by
  rw [Bool.or_eq_false_iff, List.all_eq_false, List.all_eq_false]
  constructor
  · rintro ⟨⟨x, hx, hpx⟩, y, hy, hpy⟩
    constructor
    · by_contra hlt
      rw [List.take_append_of_le_length (by omega)] at hy
      exact hpy (hfront y (List.mem_of_mem_take hy))
    · by_contra hlt
      rw [← List.append_assoc, List.drop_append, List.drop_eq_nil_of_le (by simp; omega),
        List.nil_append] at hx
      exact hpx (hback x (List.mem_of_mem_drop hx))
  · rintro ⟨hle, hlt⟩
    obtain ⟨j, rfl⟩ := Nat.exists_eq_add_of_le hle
    have hne : mid ≠ [] := List.ne_nil_of_length_pos (by omega)
    have hdrop : mid.drop j ≠ [] := by
      rw [ne_eq, List.drop_eq_nil_iff]
      omega
    refine ⟨⟨mid.getLast hne, ?_, ?_⟩, mid.head hne, ?_, ?_⟩
    · rw [List.drop_length_add_append, List.drop_append_of_le_length (by omega),
        ← List.getLast_drop hdrop]
      exact List.mem_append_left _ (List.getLast_mem hdrop)
    · simpa using hlast _ (List.getLast?_eq_getLast_of_ne_nil hne)
    · obtain ⟨c, mid, rfl⟩ := List.exists_cons_of_ne_nil hne
      rw [Nat.add_assoc, List.take_length_add_append, List.cons_append, List.take_succ_cons]
      exact List.mem_append_right _ List.mem_cons_self
    · simpa using hfirst _ (List.head?_eq_some_head hne)

theorem inner_iff {α : Type} (p : α → Bool) (xs : List α) (k : Nat) :
    ((xs.drop k).all p || (xs.take (k + 1)).all p) = false
      ↔ (xs.takeWhile p).length ≤ k
        ∧ k < (xs.takeWhile p).length + ((xs.dropWhile p).rdropWhile p).length := by
  have hsplit : xs = xs.takeWhile p
      ++ ((xs.dropWhile p).rdropWhile p ++ (xs.dropWhile p).rtakeWhile p) := by
    rw [List.rdropWhile_append_rtakeWhile, List.takeWhile_append_dropWhile]
  have hfirst : ∀ x ∈ ((xs.dropWhile p).rdropWhile p).head?, p x = false := by
    intro x hx
    obtain ⟨more, hmid⟩ := List.head?_eq_some_iff.1 hx
    have hrest : xs.dropWhile p = (x :: more) ++ (xs.dropWhile p).rtakeWhile p := by
      rw [← hmid, List.rdropWhile_append_rtakeWhile]
    have hhead := List.head?_dropWhile_not p xs
    rw [hrest] at hhead
    simpa using hhead
  have hlast : ∀ x ∈ ((xs.dropWhile p).rdropWhile p).getLast?, p x = false := by
    intro x hx
    obtain ⟨hne, rfl⟩ := List.mem_getLast?_eq_getLast hx
    simpa using List.rdropWhile_last_not p _ hne
  conv_lhs => rw [hsplit]
  exact between_iff (fun x hx => List.mem_takeWhile_imp hx)
    (fun x hx => List.mem_rtakeWhile_imp hx) hfirst hlast

section Line

variable {front body back : List Cell}

/-- A line of a source: it stands between line feeds, or at an end. -/
structure Whole (front body back : List Cell) : Prop where
  front : front.getLast?.all Cell.feeds = true
  body : ∀ c ∈ body, c.feeds = false
  back : back.head?.all Cell.feeds = true

theorem Whole.lineFront_eq (h : Whole front body back) {k : Nat} (hk : k ≤ body.length) :
    lineFront (front ++ (body ++ back)) (front.length + k) = body.take k := by
  rw [lineFront, List.take_length_add_append, List.take_append_of_le_length hk, List.rtakeWhile,
    List.reverse_append, List.takeWhile_append_of_pos]
  · have hstop : front.reverse.takeWhile (! ·.feeds) = [] := by
      have hfront := h.front
      rw [← List.head?_reverse] at hfront
      cases hrev : front.reverse with
      | nil => rfl
      | cons c rest =>
        rw [hrev] at hfront
        have hc : c.feeds = true := hfront
        simp [hc]
    rw [hstop, List.append_nil, List.reverse_reverse]
  · intro c hc
    rw [h.body c (List.mem_of_mem_take (List.mem_reverse.1 hc))]
    rfl

theorem Whole.lineRest_eq (h : Whole front body back) {k : Nat} (hk : k ≤ body.length) :
    lineRest (front ++ (body ++ back)) (front.length + k) = body.drop k := by
  rw [lineRest, List.drop_length_add_append, List.drop_append_of_le_length hk,
    List.takeWhile_append_of_pos]
  · have hstop : back.takeWhile (! ·.feeds) = [] := by
      have hback := h.back
      cases back with
      | nil => rfl
      | cons c rest =>
        have hc : c.feeds = true := hback
        simp [hc]
    rw [hstop, List.append_nil]
  · intro c hc
    rw [h.body c (List.mem_of_mem_drop hc)]
    rfl

theorem startsInside_eq (front body back : List Cell) :
    startsInside (front ++ (body ++ back)) front.length
      = continues front.getLast? { body, feed := back.head? } := by
  rw [startsInside, List.take_left, List.drop_left, List.head?_append, continues]

theorem Whole.lost_iff (h : Whole front body back) {line : CellLine}
    (hline : line = { body, feed := back.head? }) {k : Nat} (hk : k < body.length) :
    lost (front ++ (body ++ back)) (front.length + k) = false
      ↔ (lead front.getLast? line).length ≤ k
        ∧ k < (lead front.getLast? line).length + (kept front.getLast? line).length := by
  have hrest : (body.drop k).isEmpty = false := by simpa using hk
  have hboth : body.take k ++ (body.drop k).take 1 = body.take (k + 1) := by
    rw [← List.take_add]
  have hstart : front.length + k - (body.take k).length = front.length := by
    rw [List.length_take]
    omega
  rw [lost, h.lineFront_eq (Nat.le_of_lt hk), h.lineRest_eq (Nat.le_of_lt hk), hrest, hboth, hstart,
    startsInside_eq, ← hline]
  have hbody : line.body = body := by rw [hline]
  by_cases hcontinues : continues front.getLast? line = true
  · simp [lead, kept, hcontinues, hbody, hk]
  · simpa [lead, kept, hcontinues, hbody] using inner_iff Cell.blank body k

theorem Whole.lost_feed (h : Whole front body back) :
    lost (front ++ (body ++ back)) (front.length + body.length) = false := by
  rw [lost, h.lineRest_eq (Nat.le_refl _), List.drop_length]
  simp

theorem length_kept_le (before : Option Cell) (line : CellLine) :
    (lead before line).length + (kept before line).length ≤ line.body.length := by
  have hlength := congrArg List.length (body_eq before line)
  simp only [List.length_append] at hlength
  omega

theorem range'_split (s a m b : Nat) :
    List.range' s (a + m + b)
      = List.range' s a ++ List.range' (s + a) m ++ List.range' (s + (a + m)) b := by
  rw [List.range'_append_1, List.range'_append_1]

theorem filter_range' {p : Nat → Bool} {s n a m : Nat} (hle : a + m ≤ n)
    (h : ∀ k < n, p (s + k) = true ↔ a ≤ k ∧ k < a + m) :
    (List.range' s n).filter p = List.range' (s + a) m := by
  obtain ⟨b, rfl⟩ := Nat.exists_eq_add_of_le hle
  have hout {t l : Nat} (hout : ∀ k, t ≤ k → k < t + l → k < a ∨ a + m ≤ k) (hl : t + l ≤ a + m + b) :
      (List.range' (s + t) l).filter p = [] := by
    rw [List.filter_eq_nil_iff]
    intro x hx hpx
    obtain ⟨i, hi, rfl⟩ := List.mem_range'.1 hx
    rw [Nat.one_mul, Nat.add_assoc, h (t + i) (by omega)] at hpx
    have := hout (t + i) (by omega) (by omega)
    omega
  have hin : (List.range' (s + a) m).filter p = List.range' (s + a) m := by
    rw [List.filter_eq_self]
    intro x hx
    obtain ⟨i, hi, rfl⟩ := List.mem_range'.1 hx
    rw [Nat.one_mul, Nat.add_assoc, h (a + i) (by omega)]
    omega
  have hfirst := hout (t := 0) (l := a) (by omega) (by omega)
  have hlast := hout (t := a + m) (l := b) (by omega) (by omega)
  rw [range'_split, List.filter_append, List.filter_append, hin, hlast]
  simpa using hfirst

theorem Whole.lineOrigins_kept (h : Whole front body back) (width depth : Nat) :
    (lineOrigins width depth front.getLast? front.length { body, feed := back.head? }).filterMap id
      = (List.range' front.length body.length).filter
        (! lost (front ++ (body ++ back)) ·) := by
  rw [filter_range' (length_kept_le front.getLast? { body, feed := back.head? }) fun k hk => by
    rw [Bool.not_eq_true', h.lost_iff rfl hk]]
  simp [lineOrigins]

end Line

/-- The bytes that are copied are those that are not lost, each once and in order. -/
theorem origins_kept (width : Nat) {cells : List Cell} {lines : List CellLine}
    (h : Lines cells lines) :
    ∀ (front : List Cell) (depth : Nat), front.getLast?.all Cell.feeds = true →
      (origins width depth front.getLast? front.length lines).filterMap id
        = (List.range' front.length cells.length).filter (! lost (front ++ cells) ·) := by
  induction h with
  | @last body hbody =>
    intro front depth hfront
    have hwhole : Whole front body [] := ⟨hfront, hbody, rfl⟩
    have hline := hwhole.lineOrigins_kept width depth
    rw [List.append_nil] at hline
    rw [origins_last, ← hline]
    rfl
  | @line body rest feed lines hbody hfeed _ ih =>
    intro front depth hfront
    have hwhole : Whole front body (feed :: rest) := ⟨hfront, hbody, hfeed⟩
    have hline := hwhole.lineOrigins_kept width depth
    have hlater := ih (front ++ (body ++ [feed])) (body.foldl depthAfter depth) (by simpa using hfeed)
    have hcells : front ++ (body ++ [feed]) ++ rest = front ++ (body ++ feed :: rest) := by simp
    have hlength : (front ++ (body ++ [feed])).length = front.length + body.length + 1 := by
      simp [Nat.add_assoc]
    have hbefore : (front ++ (body ++ [feed])).getLast? = some feed := by simp
    have hrange : List.range' front.length (body ++ feed :: rest).length
        = List.range' front.length body.length ++ (front.length + body.length)
          :: List.range' (front.length + body.length + 1) rest.length := by
      rw [← List.range'_succ, List.range'_append_1, List.length_append, List.length_cons]
    rw [hcells, hlength, hbefore] at hlater
    rw [origins_line, List.filterMap_append, hrange, List.filter_append, ← hline,
      List.filter_cons_of_pos (by simp [hwhole.lost_feed]), ← hlater]
    rfl

/-! ## Sealed stretches -/

theorem lineOrigins_of_continues {width depth start : Nat} {before : Option Cell} {line : CellLine}
    (h : continues before line = true) :
    lineOrigins width depth before start line
      = (List.range' start line.body.length).map some := by
  simp [lineOrigins, margin, lead, kept, h]

theorem prefix_of_inside (width : Nat) {cells : List Cell} {lines : List CellLine}
    (h : Lines cells lines) :
    ∀ (before : Cell) (depth start n : Nat), before.inside = true → n ≤ cells.length →
      (∀ k < n, cells[k]?.any (·.inside) = true) →
      (List.range' start n).map some <+: origins width depth before start lines := by
  have hshort {start n l : Nat} (hn : n ≤ l) :
      (List.range' start n).map some <+: (List.range' start l).map some := by
    obtain ⟨m, rfl⟩ := Nat.exists_eq_add_of_le hn
    rw [← List.range'_append_1, List.map_append]
    exact List.prefix_append _ _
  induction h with
  | @last body _ =>
    intro before depth start n hbefore hn hinside
    rcases Nat.eq_zero_or_pos n with rfl | hpos
    · exact List.nil_prefix
    · have hfirst := hinside 0 hpos
      have hcontinues : continues (some before) { body, feed := none } = true := by
        rw [← List.head?_eq_getElem?] at hfirst
        simpa [continues, hbefore] using hfirst
      rw [origins_last, lineOrigins_of_continues hcontinues]
      exact hshort hn
  | @line body rest feed lines _ _ _ ih =>
    intro before depth start n hbefore hn hinside
    rcases Nat.eq_zero_or_pos n with rfl | hpos
    · exact List.nil_prefix
    · have hfirst := hinside 0 hpos
      have hcontinues : continues (some before) { body, feed := some feed } = true := by
        rw [← List.head?_eq_getElem?, List.head?_append, List.head?_cons] at hfirst
        simpa [continues, hbefore] using hfirst
      rw [origins_line, lineOrigins_of_continues hcontinues]
      by_cases hwithin : n ≤ body.length
      · exact (hshort hwithin).trans (List.prefix_append _ _)
      · obtain ⟨m, rfl⟩ : ∃ m, n = body.length + (m + 1) := ⟨n - body.length - 1, by omega⟩
        have hfeed : feed.inside = true := by
          simpa using hinside body.length (by omega)
        have hrest : ∀ k < m, rest[k]?.any (·.inside) = true := by
          intro k hk
          have hnext := hinside (body.length + (k + 1)) (by omega)
          rwa [List.getElem?_append_right (by omega), Nat.add_sub_cancel_left,
            List.getElem?_cons_succ] at hnext
        rw [← List.range'_append_1, List.range'_succ, List.map_append, List.map_cons]
        refine (List.prefix_append_right_inj _).2 (List.cons_prefix_cons.2 ⟨rfl, ?_⟩)
        exact ih feed _ _ m hfeed (by simp at hn; omega) hrest

/-- A stretch of a line of which nothing is lost is copied as one piece, and nothing of the line comes
after it if it ends there. -/
theorem Whole.exists_around {front body back : List Cell} (h : Whole front body back)
    (width depth : Nat) {a n : Nat} (hn : a + n ≤ body.length)
    (hkept : ∀ k, a ≤ k → k < a + n →
      lost (front ++ (body ++ back)) (front.length + k) = false) :
    ∃ x y, lineOrigins width depth front.getLast? front.length { body, feed := back.head? }
        = x ++ ((List.range' (front.length + a) n).map some ++ y)
      ∧ (a + n = body.length → y = []) := by
  rcases Nat.eq_zero_or_pos n with rfl | hpos
  · exact ⟨_, [], (List.append_nil _).symm, fun _ => rfl⟩
  · set line : CellLine := { body, feed := back.head? } with hline
    have hfirst := (h.lost_iff hline (by omega)).1 (hkept a (Nat.le_refl a) (by omega))
    have hlast := (h.lost_iff hline (by omega)).1 (hkept (a + n - 1) (by omega) (by omega))
    have hle : (lead front.getLast? line).length + (kept front.getLast? line).length
        ≤ body.length := length_kept_le front.getLast? line
    obtain ⟨u, hu⟩ := Nat.exists_eq_add_of_le hfirst.1
    obtain ⟨v, hv⟩ : ∃ v, (kept front.getLast? line).length = u + n + v :=
      ⟨(kept front.getLast? line).length - (u + n), by omega⟩
    refine ⟨List.replicate (margin width depth front.getLast? line) none
      ++ (List.range' (front.length + (lead front.getLast? line).length) u).map some,
      (List.range' (front.length + (lead front.getLast? line).length + (u + n)) v).map some, ?_, ?_⟩
    · rw [lineOrigins, hv, range'_split, hu]
      simp [Nat.add_assoc]
    · intro hend
      obtain rfl : v = 0 := by omega
      rfl

/-- A stretch inside sealed nodes of which nothing is lost is copied as one piece. -/
theorem infix_of_kept (width : Nat) {cells : List Cell} {lines : List CellLine}
    (h : Lines cells lines) :
    ∀ (front : List Cell) (depth a n : Nat), front.getLast?.all Cell.feeds = true →
      a + n ≤ cells.length → (∀ k, a ≤ k → k < a + n → cells[k]?.any (·.inside) = true) →
      (∀ k, a ≤ k → k < a + n → lost (front ++ cells) (front.length + k) = false) →
      (List.range' (front.length + a) n).map some
        <:+: origins width depth front.getLast? front.length lines := by
  induction h with
  | @last body hbody =>
    intro front depth a n hfront hn _ hkept
    have hwhole : Whole front body [] := ⟨hfront, hbody, rfl⟩
    obtain ⟨x, y, hline, -⟩ := hwhole.exists_around width depth hn (by simpa using hkept)
    rw [origins_last]
    exact ⟨x, y, by rw [List.append_assoc, ← hline]; rfl⟩
  | @line body rest feed lines hbody hfeed hrest ih =>
    intro front depth a n hfront hn hinside hkept
    have hwhole : Whole front body (feed :: rest) := ⟨hfront, hbody, hfeed⟩
    have hcells : front ++ (body ++ [feed]) ++ rest = front ++ (body ++ feed :: rest) := by simp
    have hlength : (front ++ (body ++ [feed])).length = front.length + body.length + 1 := by
      simp [Nat.add_assoc]
    have hbefore : (front ++ (body ++ [feed])).getLast? = some feed := by simp
    have hnext (k : Nat) : (body ++ feed :: rest)[body.length + (k + 1)]? = rest[k]? := by
      rw [List.getElem?_append_right (Nat.le_add_right ..), Nat.add_sub_cancel_left,
        List.getElem?_cons_succ]
    rw [List.length_append, List.length_cons] at hn
    rw [origins_line]
    rcases Nat.lt_or_ge body.length a with hbehind | hstart
    · -- the stretch lies behind the line
      obtain ⟨b, rfl⟩ : ∃ b, a = body.length + (b + 1) := ⟨a - body.length - 1, by omega⟩
      have hlater := ih (front ++ (body ++ [feed])) (body.foldl depthAfter depth) b n
        (by simpa using hfeed) (by omega)
        (fun k hb hk => hnext k ▸ hinside (body.length + (k + 1)) (by omega) (by omega))
        fun k hb hk => by
          have hnotLost := hkept (body.length + (k + 1)) (by omega) (by omega)
          rwa [hcells, hlength, show front.length + body.length + 1 + k
            = front.length + (body.length + (k + 1)) by omega]
      rw [hlength, hbefore, show front.length + body.length + 1 + b
        = front.length + (body.length + (b + 1)) by omega] at hlater
      exact hlater.trans (List.suffix_append_of_suffix (List.suffix_cons _ _)).isInfix
    rcases Nat.lt_or_ge body.length (a + n) with hacross | hwithin
    · -- it goes on behind the line, which the next line continues
      obtain ⟨m, rfl⟩ : ∃ m, n = body.length - a + (m + 1) := ⟨a + n - body.length - 1, by omega⟩
      obtain ⟨x, y, hline, hend⟩ := hwhole.exists_around width depth
        (a := a) (n := body.length - a) (by omega) fun k ha hk => hkept k ha (by omega)
      obtain rfl := hend (by omega)
      have hfeedInside : feed.inside = true := by
        simpa using hinside body.length hstart (by omega)
      obtain ⟨z, hz⟩ := prefix_of_inside width hrest feed (body.foldl depthAfter depth)
        (front.length + body.length + 1) m hfeedInside (by omega)
        fun k hk => hnext k ▸ hinside (body.length + (k + 1)) (by omega) (by omega)
      have hrange : List.range' (front.length + a) (body.length - a + (m + 1))
          = List.range' (front.length + a) (body.length - a) ++ (front.length + body.length)
            :: List.range' (front.length + body.length + 1) m := by
        rw [← List.range'_append_1, show front.length + a + (body.length - a)
          = front.length + body.length by omega, List.range'_succ]
      have hfirst : lineOrigins width depth front.getLast? front.length { body, feed := some feed }
          = x ++ (List.range' (front.length + a) (body.length - a)).map some := by
        rwa [List.append_nil] at hline
      refine ⟨x, z, ?_⟩
      rw [← hz, hfirst, hrange]
      simp
    · -- it ends in the line
      obtain ⟨x, y, hline, -⟩ := hwhole.exists_around width depth hwithin hkept
      refine List.IsInfix.trans ⟨x, y, ?_⟩ (List.prefix_append _ _).isInfix
      rw [List.append_assoc, ← hline]
      rfl

/-! ## The written text -/

theorem map_byte_cells (parsed : Parsed) : (cells parsed).map (·.byte) = parsed.source := by
  rw [cells, List.map_map]
  exact List.zipIdx_map_fst 0 parsed.source

theorem length_cells (parsed : Parsed) : (cells parsed).length = parsed.source.length := by
  rw [← map_byte_cells parsed, List.length_map]

theorem lt_of_blank {cell : Cell} (h : cell.blank = true) : cell.byte < 128 := by
  rw [Cell.blank, isBlankByte, Bool.or_eq_true, Bool.and_eq_true] at h
  rcases h with h | ⟨-, h⟩
  · rw [of_decide_eq_true h]
    decide
  · have hle : cell.byte ≤ 13 := of_decide_eq_true h
    exact UInt8.lt_of_le_of_lt hle (by decide)

theorem blank_of_lead {before : Option Cell} {line : CellLine} :
    ∀ c ∈ lead before line, c.blank = true := by
  rw [lead]
  split_ifs
  · exact List.forall_mem_nil _
  · exact fun c hc => List.mem_takeWhile_imp hc

theorem blank_of_trail {before : Option Cell} {line : CellLine} :
    ∀ c ∈ trail before line, c.blank = true := by
  rw [trail]
  split_ifs
  · exact List.forall_mem_nil _
  · exact fun c hc => List.mem_rtakeWhile_imp hc

theorem spelled_writeLine (width depth : Nat) (before : Option Cell) {line : CellLine}
    (h : Spelled (line.body.map (·.byte))) : Spelled (writeLine width depth before line) := by
  have hlow {x : List Cell} (hx : ∀ c ∈ x, c.blank = true) : ∀ b ∈ x.map (·.byte), b < 128 := by
    intro b hb
    obtain ⟨c, hc, rfl⟩ := List.mem_map.1 hb
    exact lt_of_blank (hx c hc)
  rw [body_eq before line, List.map_append, List.map_append] at h
  rw [writeLine_eq]
  have hspace : Spelled [32] := ⟨[' '], rfl⟩
  exact (hspace.replicate _).append
    ((h.of_ascii_append (hlow blank_of_lead)).of_append_ascii (hlow blank_of_trail))

theorem spelled_writeLines (width : Nat) {cells : List Cell} {lines : List CellLine}
    (h : Lines cells lines) : ∀ (depth : Nat) (before : Option Cell), Spelled (cells.map (·.byte)) →
      Spelled (List.intercalate [lineFeed] (writeLines width depth before lines)) := by
  induction h with
  | last =>
    intro depth before hcells
    simpa [writeLines] using spelled_writeLine width depth before hcells
  | @line body rest feed lines _ hfeed hrest ih =>
    intro depth before hcells
    have hbyte : feed.byte = lineFeed := of_decide_eq_true hfeed
    rw [List.map_append, List.map_cons] at hcells
    obtain ⟨hbody, hrestBytes⟩ := hcells.cut (by rw [hbyte]; decide)
    obtain ⟨next, more, hnext⟩ :=
      exists_cons_writeLines width (body.foldl depthAfter depth) (some feed) hrest
    have hlater := ih (body.foldl depthAfter depth) (some feed) hrestBytes
    have hfeedSpelled : Spelled [lineFeed] := ⟨['\n'], rfl⟩
    rw [writeLines, hnext, List.intercalate_cons_cons, ← hnext]
    exact ((spelled_writeLine width depth before hbody).append hfeedSpelled).append hlater

/-! ## Sealed nodes -/

/-- The offsets of the bytes that a node covers. -/
def covered (parsed : Parsed) (node : Node) : List Nat :=
  List.range' node.start (min node.stop parsed.source.length - node.start)

theorem inside_of_covered {parsed : Parsed} {node : Node} (hnode : node ∈ parsed.nodes)
    (hsealed : sealedKinds.contains node.kind = true) {i : Nat} (hi : i ∈ covered parsed node) :
    (cells parsed)[i]?.any (·.inside) = true := by
  obtain ⟨k, hk, rfl⟩ := List.mem_range'.1 hi
  rw [Nat.one_mul]
  have hlength : node.start + k < parsed.source.length := by omega
  have hspan : (node.start, node.stop) ∈ (parsed.nodes.filter fun node =>
      sealedKinds.contains node.kind).map fun node => (node.start, node.stop) :=
    List.mem_map_of_mem (List.mem_filter.2 ⟨hnode, hsealed⟩)
  rw [cells, List.getElem?_map, List.getElem?_zipIdx, List.getElem?_eq_getElem hlength]
  exact List.any_eq_true.2 ⟨_, hspan, by simp; omega⟩

theorem slice_eq_map_covered (parsed : Parsed) (node : Node) :
    slice node.start node.stop parsed.source
      = ((covered parsed node).map some).map (written parsed.source) := by
  rw [covered, slice, List.map_map]
  apply List.ext_getElem
  · simp
    omega
  · intro i hi hi'
    have hlength : node.start + i < parsed.source.length := by
      simp at hi'
      omega
    simp [written, List.getElem?_eq_getElem hlength]

/-- For each byte that is written there is the offset in the source that it is copied from, if it was
not put in as a space. Copied are the bytes that are not lost, each once and in order; and what a
string, template, regular expression or comment covers is copied as one piece exactly if nothing of it
is lost. -/
theorem sealed_copied_iff {parser : Parser} {dialect : Dialect} {text : Text} {parsed : Parsed}
    (width : Nat) (h : (parse parser dialect text).value = some parsed)
    (hfine : parsed.hasErrors = false) :
    ∃ copied : List (Option Nat),
      encode (format parser dialect width text).value = copied.map (written parsed.source)
        ∧ copied.filterMap id
          = (List.range parsed.source.length).filter (! lost (cells parsed) ·)
        ∧ ∀ node ∈ parsed.nodes, sealedKinds.contains node.kind = true →
          ((covered parsed node).map some <:+: copied
              ↔ ∀ i ∈ covered parsed node, lost (cells parsed) i = false)
            ∧ ((covered parsed node).map some <:+: copied →
              slice node.start node.stop parsed.source
                <:+: encode (format parser dialect width text).value) := by
  have hlines := lines_cellLines (cells parsed)
  set copied := origins width 0 none 0 (cellLines (cells parsed)) with hcopied
  have hformat : (format parser dialect width text).value = decode (formatBytes width parsed) := by
    simp only [format, bind, h, hfine, Bool.false_eq_true, if_false]
    rfl
  have hbytes : encode (format parser dialect width text).value
      = copied.map (written parsed.source) := by
    have hspelled : Spelled (formatBytes width parsed) := by
      refine spelled_writeLines width hlines 0 none ?_
      obtain hnone | ⟨grammar, hparse⟩ := Parser.parse_of_parseBest _ h
      · simp at hnone
      · rw [map_byte_cells, (Parser.parse_eq_ok hparse).2]
        exact ⟨text, rfl⟩
    have hwritten := intercalate_writeLines width hlines [] 0 none
    rw [hformat, encode_decode hspelled, formatBytes, hwritten, List.nil_append, map_byte_cells]
    rfl
  have hkept : copied.filterMap id
      = (List.range parsed.source.length).filter (! lost (cells parsed) ·) := by
    have hkept := origins_kept width hlines [] 0 rfl
    rwa [length_cells, List.length_nil, ← List.range_eq_range'] at hkept
  refine ⟨copied, hbytes, hkept, fun node hnode hsealed => ⟨⟨fun hinfix i hi => ?_, fun hnotLost => ?_⟩,
    fun hinfix => ?_⟩⟩
  · have hmem : i ∈ copied.filterMap id :=
      List.mem_filterMap.2 ⟨some i, hinfix.subset (List.mem_map_of_mem hi), rfl⟩
    rw [hkept] at hmem
    simpa using (List.mem_filter.1 hmem).2
  · have hmem {k : Nat} (hle : node.start ≤ k)
        (hlt : k < node.start + (min node.stop parsed.source.length - node.start)) :
        k ∈ covered parsed node :=
      List.mem_range'.2 ⟨k - node.start, by omega, by omega⟩
    have hall := infix_of_kept width hlines [] 0 node.start
      (min node.stop parsed.source.length - node.start) rfl
    simp only [List.length_nil, List.nil_append, Nat.zero_add, length_cells] at hall
    rcases Nat.eq_zero_or_pos (min node.stop parsed.source.length - node.start) with hnone | hpos
    · rw [covered, hnone]
      exact List.nil_infix
    · exact hall (by omega) (fun k hle hlt => inside_of_covered hnode hsealed (hmem hle hlt))
        fun k hle hlt => hnotLost k (hmem hle hlt)
  · rw [hbytes, slice_eq_map_covered]
    exact hinfix.map _

/-- A template whose first line ends in blanks. -/
def looseTemplate : Text := "const s = `a  \n  b`;\n".toList

def looseTree : Node :=
  .mk { kind := "program", start := 0, stop := 21 }
    [.mk { kind := "lexical_declaration", start := 0, stop := 20 }
      [.mk { kind := "const", start := 0, stop := 5, named := false } [],
       .mk { kind := "variable_declarator", start := 6, stop := 19 }
        [.mk { kind := "identifier", start := 6, stop := 7, field := some "name" } [],
         .mk { kind := "=", start := 8, stop := 9, named := false } [],
         .mk { kind := "template_string", start := 10, stop := 19, field := some "value" } []],
       .mk { kind := ";", start := 19, stop := 20, named := false } []]]

theorem parse_looseTemplate :
    (parse (fun _ _ => .ok looseTree) .typescript looseTemplate).value
      = some ⟨"typescript", encode looseTemplate, looseTree⟩ := by
  have hfine : Parsed.hasErrors ⟨"typescript", encode looseTemplate, looseTree⟩ = false := by
    decide +kernel
  have hfound : (Parser.parse? (fun _ _ => .ok looseTree) .typescript looseTemplate).value
      = some ⟨"typescript", encode looseTemplate, looseTree⟩ := rfl
  rw [parse, Dialect.grammars, Parser.parseBest, Parser.firstBest]
  simp only [bind, hfound, hfine]
  rfl

theorem sealed_copied_iff_looseTemplate :
    let parsed : Parsed := ⟨"typescript", encode looseTemplate, looseTree⟩
    (parse (fun _ _ => .ok looseTree) .typescript looseTemplate).value = some parsed
      ∧ parsed.hasErrors = false
      ∧ ∃ copied : List (Option Nat),
        encode (format (fun _ _ => .ok looseTree) .typescript 4 looseTemplate).value
            = copied.map (written parsed.source)
          ∧ copied.filterMap id
            = (List.range parsed.source.length).filter (! lost (cells parsed) ·)
          ∧ ∀ node ∈ parsed.nodes, sealedKinds.contains node.kind = true →
            ((covered parsed node).map some <:+: copied
                ↔ ∀ i ∈ covered parsed node, lost (cells parsed) i = false)
              ∧ ((covered parsed node).map some <:+: copied →
                slice node.start node.stop parsed.source
                  <:+: encode (format (fun _ _ => .ok looseTree) .typescript 4 looseTemplate).value) := by
  intro parsed
  have hfine : parsed.hasErrors = false := by decide +kernel
  exact ⟨parse_looseTemplate, hfine, sealed_copied_iff 4 parse_looseTemplate hfine⟩

/-- The blanks inside the template are lost, so it does not occur in what is written. -/
theorem format_trims_template :
    let parsed : Parsed := ⟨"typescript", encode looseTemplate, looseTree⟩
    (parse (fun _ _ => .ok looseTree) .typescript looseTemplate).value = some parsed
      ∧ parsed.hasErrors = false
      ∧ ∃ node ∈ parsed.nodes, sealedKinds.contains node.kind = true
        ∧ slice node.start node.stop parsed.source = encode "`a  \n  b`".toList
        ∧ (format (fun _ _ => .ok looseTree) .typescript 4 looseTemplate).value
          = "const s = `a\n  b`;\n".toList
        ∧ ¬slice node.start node.stop parsed.source
          <:+: encode (format (fun _ _ => .ok looseTree) .typescript 4 looseTemplate).value := by
  exact ⟨parse_looseTemplate, by decide +kernel, by decide +kernel⟩

end SourceLens.Script
