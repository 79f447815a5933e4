import Mathlib.Tactic.Common
import SourceLens.Pattern.Search

/-!
# What a pattern matches

`Pattern.Spans p before x after` says that `p` can match the text `x` between the character `before`
and the text `after`, whatever it prefers. Backtracking finds a match exactly if there is one
(`isSome_run_iff`), so whether a pattern matches at the start of a text is a question about `Spans`
(`startsAt_iff`).
-/

namespace SourceLens.Pattern

/-- The character before the place that follows `text`. -/
def lastOf (before : Option Char) (text : Text) : Option Char := text.getLast?.or before

@[simp] theorem lastOf_nil (before : Option Char) : lastOf before [] = before := rfl

theorem lastOf_append (before : Option Char) (x y : Text) :
    lastOf before (x ++ y) = lastOf (lastOf before x) y := by
  simp [lastOf, Option.or_assoc]

/-- Rounds of a relation, each of which takes up text. -/
inductive Rounds (spans : Option Char → Text → Text → Prop) : Option Char → Text → Text → Prop
  | done (before : Option Char) (after : Text) : Rounds spans before [] after
  | round {before : Option Char} {x y after : Text} : x ≠ [] → spans before x (y ++ after) →
      Rounds spans (lastOf before x) y after → Rounds spans before (x ++ y) after

/-- Whether a pattern can match `x` between `before` and `after`. -/
def Spans : Pattern → Option Char → Text → Text → Prop
  | empty, _, x, _ => x = []
  | one test, _, x, _ => ∃ c, x = [c] ∧ test c = true
  | seq p q, before, x, after =>
    ∃ y z, x = y ++ z ∧ p.Spans before y (z ++ after) ∧ q.Spans (lastOf before y) z after
  | alt p q, before, x, after => p.Spans before x after ∨ q.Spans before x after
  | many p, before, x, after => Rounds p.Spans before x after
  | few p, before, x, after => Rounds p.Spans before x after
  | group _ p, before, x, after => p.Spans before x after
  | wordEdge, before, x, after => x = [] ∧ (before.any isWord != after.head?.any isWord) = true
  | lineStart, before, x, _ => x = [] ∧ (before = none ∨ before = some '\n')
  | finish, _, x, after => x = [] ∧ (after = [] ∨ after = ['\n'])
  | notAhead p, before, x, after => x = [] ∧ ¬∃ y z, after = y ++ z ∧ p.Spans before y z

/-- The place after `x`, with the groups remembered until there. -/
def Cursor.past (here : Cursor) (x rest : Text) (groups : List (Nat × Text)) : Cursor :=
  { before := lastOf here.before x, rest, offset := here.offset + x.length, groups }

/-- A way to match: what it takes up and where it goes on. -/
def Leads (spans : Option Char → Text → Text → Prop) (here : Cursor)
    (goal : Cursor → Prop) : Prop :=
  ∃ x rest groups, here.rest = x ++ rest ∧ spans here.before x rest ∧ goal (here.past x rest groups)

/-- A matcher finds a way if there is one, and only ways that there are. -/
structure Faithful (spans : Option Char → Text → Text → Prop)
    (step : Cursor → (Cursor → Option Cursor) → Option Cursor) : Prop where
  sound : ∀ {here next found}, step here next = some found →
    Leads spans here fun there => next there = some found
  complete : ∀ {here : Cursor} {next} (x) {rest}, here.rest = x ++ rest → spans here.before x rest →
    (∀ groups, (next (here.past x rest groups)).isSome) → (step here next).isSome

theorem Cursor.past_past (here : Cursor) (x y rest mid : Text) (gs hs : List (Nat × Text)) :
    (here.past x mid gs).past y rest hs = here.past (x ++ y) rest hs := by
  simp [Cursor.past, lastOf_append, Nat.add_assoc]

theorem Cursor.past_nil (here : Cursor) : here.past [] here.rest here.groups = here := rfl

/-! ## Rounds -/

section Rounds

variable {spans : Option Char → Text → Text → Prop}
  {step : Cursor → (Cursor → Option Cursor) → Option Cursor}

theorem Leads.round {here : Cursor} {next : Cursor → Option Cursor} {found : Cursor}
    {more : Cursor → (Cursor → Option Cursor) → Option Cursor} (h : Faithful spans step)
    (hmore : ∀ {there}, more there next = some found →
      Leads (Rounds spans) there fun last => next last = some found)
    (hround : (step here fun there =>
      if here.offset < there.offset then more there next else none) = some found) :
    Leads (Rounds spans) here fun there => next there = some found := by
  obtain ⟨x, mid, gs, hrest, hx, hnext⟩ := h.sound hround
  split_ifs at hnext with hmoved
  obtain ⟨y, rest, hs, hmid, hy, hlast⟩ := hmore hnext
  have hmid' : mid = y ++ rest := hmid
  have hne : x ≠ [] := by
    rintro rfl
    simp [Cursor.past] at hmoved
  refine ⟨x ++ y, rest, hs, by rw [hrest, hmid', List.append_assoc],
    .round hne (hmid' ▸ hx) hy, ?_⟩
  rwa [Cursor.past_past] at hlast

theorem greedy_sound (h : Faithful spans step) (rounds : Nat) :
    ∀ {here next found}, greedy step rounds here next = some found →
      Leads (Rounds spans) here fun there => next there = some found := by
  induction rounds with
  | zero => exact fun hrun => ⟨[], _, _, rfl, .done .., hrun⟩
  | succ rounds ih =>
    intro here next found hrun
    rw [greedy] at hrun
    split at hrun
    · rename_i other hround
      obtain rfl := Option.some.inj hrun
      exact Leads.round h ih hround
    · exact ⟨[], _, _, rfl, .done .., hrun⟩

theorem reluctant_sound (h : Faithful spans step) (rounds : Nat) :
    ∀ {here next found}, reluctant step rounds here next = some found →
      Leads (Rounds spans) here fun there => next there = some found := by
  induction rounds with
  | zero => exact fun hrun => ⟨[], _, _, rfl, .done .., hrun⟩
  | succ rounds ih =>
    intro here next found hrun
    rw [reluctant] at hrun
    split at hrun
    · rename_i other hdone
      obtain rfl := Option.some.inj hrun
      exact ⟨[], _, _, rfl, .done .., hdone⟩
    · exact Leads.round h ih hrun

/-- A matcher of rounds that tries both to stop and to go on finds every way of at most as many
rounds as it has left. -/
theorem rounds_complete (h : Faithful spans step)
    (more : Nat → Cursor → (Cursor → Option Cursor) → Option Cursor)
    (hstop : ∀ {rounds here next}, (next here).isSome → (more rounds here next).isSome)
    (hgo : ∀ {rounds here next}, (step here fun there =>
      if here.offset < there.offset then more rounds there next else none).isSome →
      (more (rounds + 1) here next).isSome)
    {before : Option Char} {x rest : Text} (hx : Rounds spans before x rest) :
    ∀ {rounds : Nat} {here : Cursor} {next}, x.length ≤ rounds → here.before = before →
      here.rest = x ++ rest → (∀ groups, (next (here.past x rest groups)).isSome) →
      (more rounds here next).isSome := by
  induction hx with
  | done before after =>
    intro rounds here next _ _ hrest hnext
    apply hstop
    have hhere := hnext here.groups
    rwa [show after = here.rest from hrest.symm] at hhere
  | @round before x y after hne hx _ ih =>
    intro rounds here next hlength hbefore hrest hnext
    have hpos : 0 < x.length := List.length_pos_iff.2 hne
    rw [List.length_append] at hlength
    obtain ⟨rounds, rfl⟩ : ∃ n, rounds = n + 1 := ⟨rounds - 1, by omega⟩
    apply hgo
    apply h.complete x (hrest.trans (List.append_assoc ..))
    · rwa [hbefore]
    · intro groups
      have hmoved : here.offset < (here.past x (y ++ after) groups).offset := by
        simp [Cursor.past, hpos]
      rw [if_pos hmoved]
      apply ih (by omega)
      · rw [Cursor.past, hbefore]
      · rfl
      · intro groups'
        rw [Cursor.past_past]
        exact hnext groups'

theorem Faithful.greedy (h : Faithful spans step) :
    Faithful (Rounds spans) fun here next => greedy step here.rest.length here next := by
  refine ⟨greedy_sound h _, fun _ _ hrest hx hnext => ?_⟩
  refine rounds_complete h (Pattern.greedy step) (fun hdone => ?_) (fun hround => ?_) hx
    (by simp [hrest]) rfl hrest hnext
  · rename_i rounds _ _
    cases rounds with
    | zero => exact hdone
    | succ rounds =>
      rw [Pattern.greedy]
      split
      · rfl
      · exact hdone
  · obtain ⟨found, hfound⟩ := Option.isSome_iff_exists.1 hround
    rw [Pattern.greedy, hfound]
    rfl

theorem Faithful.reluctant (h : Faithful spans step) :
    Faithful (Rounds spans) fun here next => reluctant step here.rest.length here next := by
  refine ⟨reluctant_sound h _, fun _ _ hrest hx hnext => ?_⟩
  refine rounds_complete h (Pattern.reluctant step) (fun hdone => ?_) (fun hround => ?_) hx
    (by simp [hrest]) rfl hrest hnext
  · rename_i rounds _ _
    obtain ⟨found, hfound⟩ := Option.isSome_iff_exists.1 hdone
    cases rounds with
    | zero => exact hdone
    | succ rounds =>
      rw [Pattern.reluctant, hfound]
      rfl
  · rw [Pattern.reluctant]
    split
    · rfl
    · exact hround

end Rounds

/-! ## Patterns -/

theorem faithful_guard {holds : Option Char → Text → Prop}
    {step : Cursor → (Cursor → Option Cursor) → Option Cursor}
    (hpass : ∀ {here next}, holds here.before here.rest → step here next = next here)
    (hfail : ∀ {here next}, ¬holds here.before here.rest → step here next = none) :
    Faithful (fun before x after => x = [] ∧ holds before after) step := by
  constructor
  · intro here next found hrun
    by_cases h : holds here.before here.rest
    · exact ⟨[], here.rest, here.groups, rfl, ⟨rfl, h⟩, by rwa [hpass h] at hrun⟩
    · simp [hfail h] at hrun
  · rintro here next x rest hrest ⟨rfl, h⟩ hnext
    obtain rfl : here.rest = rest := hrest
    rw [hpass h]
    exact hnext here.groups

theorem Faithful.one (test : Char → Bool) : Faithful (Spans (one test)) (run (one test)) := by
  constructor
  · intro here next found hrun
    rw [run] at hrun
    split at hrun
    · simp at hrun
    · rename_i c rest hrest
      split_ifs at hrun with htest
      exact ⟨[c], rest, here.groups, hrest, ⟨c, rfl, htest⟩, hrun⟩
  · rintro here next x rest hrest ⟨c, rfl, htest⟩ hnext
    have hrun : run (Pattern.one test) here next = next (here.past [c] rest here.groups) := by
      rw [run, hrest]
      simp only [List.singleton_append, htest, if_true]
      rfl
    rw [hrun]
    exact hnext here.groups

theorem Faithful.seq {p q : Pattern} (hp : Faithful p.Spans p.run) (hq : Faithful q.Spans q.run) :
    Faithful (Spans (seq p q)) (run (seq p q)) := by
  constructor
  · intro here next found hrun
    obtain ⟨y, mid, gs, hrest, hy, hnext⟩ := hp.sound hrun
    obtain ⟨z, rest, hs, hmid, hz, hlast⟩ := hq.sound hnext
    have hmid' : mid = z ++ rest := hmid
    refine ⟨y ++ z, rest, hs, by rw [hrest, hmid', List.append_assoc],
      ⟨y, z, rfl, hmid' ▸ hy, hz⟩, ?_⟩
    rwa [Cursor.past_past] at hlast
  · rintro here next x rest hrest ⟨y, z, rfl, hy, hz⟩ hnext
    refine hp.complete y (hrest.trans (List.append_assoc ..)) hy ?_
    intro groups
    refine hq.complete z rfl hz fun groups' => ?_
    rw [Cursor.past_past]
    exact hnext groups'

theorem Faithful.alt {p q : Pattern} (hp : Faithful p.Spans p.run) (hq : Faithful q.Spans q.run) :
    Faithful (Spans (alt p q)) (run (alt p q)) := by
  constructor
  · intro here next found hrun
    rw [run] at hrun
    split at hrun
    · rename_i other hfirst
      obtain rfl := Option.some.inj hrun
      obtain ⟨x, rest, gs, hrest, hx, hnext⟩ := hp.sound hfirst
      exact ⟨x, rest, gs, hrest, .inl hx, hnext⟩
    · obtain ⟨x, rest, gs, hrest, hx, hnext⟩ := hq.sound hrun
      exact ⟨x, rest, gs, hrest, .inr hx, hnext⟩
  · intro here next x rest hrest hx hnext
    rw [run]
    split
    · rfl
    · rename_i hnone
      rcases hx with hx | hx
      · have hsome := hp.complete _ hrest hx hnext
        simp [hnone] at hsome
      · exact hq.complete _ hrest hx hnext

theorem Faithful.group {p : Pattern} (hp : Faithful p.Spans p.run) (index : Nat) :
    Faithful (Spans (group index p)) (run (group index p)) := by
  constructor
  · intro here next found hrun
    obtain ⟨x, rest, gs, hrest, hx, hnext⟩ := hp.sound hrun
    exact ⟨x, rest, _, hrest, hx, hnext⟩
  · intro here next x rest hrest hx hnext
    exact hp.complete _ hrest hx fun groups => hnext _

theorem Faithful.isSome_iff {spans : Option Char → Text → Text → Prop}
    {step : Cursor → (Cursor → Option Cursor) → Option Cursor} (h : Faithful spans step)
    (here : Cursor) :
    (step here some).isSome ↔ ∃ x rest, here.rest = x ++ rest ∧ spans here.before x rest := by
  constructor
  · intro hsome
    obtain ⟨found, hfound⟩ := Option.isSome_iff_exists.1 hsome
    obtain ⟨x, rest, -, hrest, hx, -⟩ := h.sound hfound
    exact ⟨x, rest, hrest, hx⟩
  · rintro ⟨x, rest, hrest, hx⟩
    exact h.complete _ hrest hx fun _ => rfl

theorem faithful_run (p : Pattern) : Faithful p.Spans p.run := by
  induction p with
  | empty =>
    refine ⟨fun hrun => ⟨[], _, _, rfl, rfl, hrun⟩, ?_⟩
    rintro here next x rest hrest rfl hnext
    obtain rfl : here.rest = rest := hrest
    exact hnext here.groups
  | one test => exact .one test
  | seq p q hp hq => exact hp.seq hq
  | alt p q hp hq => exact hp.alt hq
  | many p hp => exact hp.greedy
  | few p hp => exact hp.reluctant
  | group index p hp => exact hp.group index
  | wordEdge => exact faithful_guard (fun h => if_pos h) fun h => if_neg h
  | lineStart => exact faithful_guard (fun h => if_pos h) fun h => if_neg h
  | finish => exact faithful_guard (fun h => if_pos h) fun h => if_neg h
  | notAhead p hp =>
    refine faithful_guard (fun {here next} h => ?_) fun {here next} h => ?_
    · have hnone : p.run here some = none := by
        simpa using mt (hp.isSome_iff here).1 h
      rw [run, hnone]
    · obtain ⟨found, hfound⟩ :=
        Option.isSome_iff_exists.1 ((hp.isSome_iff here).2 (not_not.1 h))
      rw [run, hfound]

/-- Whether a pattern can match a front of a text that stands after `before`. -/
def Begins (p : Pattern) (before : Option Char) (text : Text) : Prop :=
  ∃ x rest, text = x ++ rest ∧ p.Spans before x rest

/-- A pattern matches at the start of a text exactly if a front of the text is a match. -/
theorem startsAt_iff {p : Pattern} {text : Text} : p.startsAt text = true ↔ p.Begins none text := by
  rw [startsAt, matchStart?, matchAt, Option.isSome_map]
  exact (faithful_run p).isSome_iff _

theorem begins_seq {p q : Pattern} {before : Option Char} {text : Text} :
    (seq p q).Begins before text ↔ ∃ y rest, text = y ++ rest ∧ p.Spans before y rest
      ∧ q.Begins (lastOf before y) rest := by
  constructor
  · rintro ⟨_, rest, rfl, y, z, rfl, hy, hz⟩
    exact ⟨y, z ++ rest, List.append_assoc .., hy, z, rest, rfl, hz⟩
  · rintro ⟨y, _, rfl, hy, z, rest, rfl, hz⟩
    exact ⟨y ++ z, rest, (List.append_assoc ..).symm, y, z, rfl, hy, hz⟩

/-! ## Rounds of one character -/

theorem greedy_one_nil {test : Char → Bool} {here : Cursor} {next : Cursor → Option Cursor}
    (hrest : here.rest = []) (n : Nat) : greedy (run (one test)) n here next = next here := by
  cases n with
  | zero => rfl
  | succ n =>
    rw [greedy, run, hrest]

theorem greedy_one_cons {test : Char → Bool} {here : Cursor} {next : Cursor → Option Cursor}
    {c : Char} {rest : Text} (hrest : here.rest = c :: rest) (n : Nat) :
    greedy (run (one test)) (n + 1) here next
      = if test c then (greedy (run (one test)) n (here.advance c rest) next).or (next here)
        else next here := by
  have hmoved : here.offset < (here.advance c rest).offset := Nat.lt_succ_self _
  rw [greedy, run, hrest]
  by_cases hc : test c = true
  · simp only [hc, if_true, hmoved]
    cases greedy (run (one test)) n (here.advance c rest) next <;> rfl
  · simp only [hc]
    rfl

/-! ## The building blocks -/

theorem spans_many_one {test : Char → Bool} {before : Option Char} {x after : Text} :
    (many (one test)).Spans before x after ↔ ∀ c ∈ x, test c = true := by
  constructor
  · intro h
    induction h with
    | done => simp
    | round _ hx _ ih =>
      obtain ⟨c, rfl, hc⟩ := hx
      exact List.forall_mem_cons.2 ⟨hc, ih⟩
  · intro h
    induction x generalizing before with
    | nil => exact .done ..
    | cons c x ih =>
      obtain ⟨hc, hx⟩ := List.forall_mem_cons.1 h
      exact Rounds.round (x := [c]) (by simp) ⟨c, rfl, hc⟩ (ih hx)

theorem spans_many1_one {test : Char → Bool} {before : Option Char} {x after : Text} :
    (many1 (one test)).Spans before x after ↔ x ≠ [] ∧ ∀ c ∈ x, test c = true := by
  constructor
  · rintro ⟨y, z, rfl, ⟨c, rfl, hc⟩, hz⟩
    exact ⟨by simp, List.forall_mem_cons.2 ⟨hc, spans_many_one.1 hz⟩⟩
  · rintro ⟨hne, h⟩
    obtain ⟨c, x, rfl⟩ := List.exists_cons_of_ne_nil hne
    obtain ⟨hc, hx⟩ := List.forall_mem_cons.1 h
    exact ⟨[c], x, rfl, ⟨c, rfl, hc⟩, spans_many_one.2 hx⟩

theorem spans_opt {p : Pattern} {before : Option Char} {x after : Text} :
    (opt p).Spans before x after ↔ p.Spans before x after ∨ x = [] := Iff.rfl

theorem spans_chain_cons {p q : Pattern} {rest : List Pattern} {before : Option Char}
    {x after : Text} :
    (chain (p :: q :: rest)).Spans before x after
      ↔ ∃ y z, x = y ++ z ∧ p.Spans before y (z ++ after)
        ∧ (chain (q :: rest)).Spans (lastOf before y) z after := Iff.rfl

theorem spans_lit {text : String} {before : Option Char} {x after : Text} :
    (lit text).Spans before x after ↔ x = text.toList := by
  rw [lit]
  generalize text.toList = chars
  induction chars generalizing before x with
  | nil => rfl
  | cons c chars ih =>
    cases chars with
    | nil =>
      constructor
      · rintro ⟨d, rfl, hd⟩
        rw [eq_of_beq hd]
      · rintro rfl
        exact ⟨c, rfl, by simp⟩
    | cons d chars =>
      rw [List.map_cons, List.map_cons, spans_chain_cons]
      constructor
      · rintro ⟨y, z, rfl, ⟨e, rfl, he⟩, hz⟩
        rw [eq_of_beq he, ih.1 hz]
        rfl
      · rintro rfl
        exact ⟨[c], d :: chars, rfl, ⟨c, rfl, by simp⟩, ih.2 rfl⟩

end SourceLens.Pattern
