import SourceLens.Proofs.Pattern.Language

/-!
# Evaluating patterns

A run of one character class goes to its end if nothing can follow it before (`run_many_skip`), or if
something can follow it there (`run_many_most`); a reluctant run stops at the first place where
something can (`run_few_first`). With the equations for fixed texts, this evaluates a pattern on a text
of known shape. Where the shape is known up to a group only, the rest of the pattern leaves the group
as it is (`keeps_run`).
-/

namespace SourceLens.Pattern

variable {s : Cursor} {k : Cursor → Option Cursor} {t : Char → Bool} {x r : Text}

@[simp] theorem Cursor.past_rest (x r : Text) (groups : List (Nat × Text)) :
    (s.past x r groups).rest = r := rfl

@[simp] theorem Cursor.past_groups (x r : Text) (groups : List (Nat × Text)) :
    (s.past x r groups).groups = groups := rfl

@[simp] theorem Cursor.past_offset (x r : Text) (groups : List (Nat × Text)) :
    (s.past x r groups).offset = s.offset + x.length := rfl

theorem Cursor.past_cons (c : Char) (x mid r : Text) :
    (s.advance c mid).past x r s.groups = s.past (c :: x) r s.groups := by
  have hadvance : s.advance c mid = s.past [c] mid s.groups := rfl
  rw [hadvance, Cursor.past_past, List.singleton_append]

theorem head_dropWhile (t : Char → Bool) (text : Text) :
    (text.dropWhile t).head?.any t = false := by
  cases h : text.dropWhile t with
  | nil => rfl
  | cons c r =>
    have hhead := List.head?_dropWhile_not t text
    rw [h] at hhead
    simpa using hhead

theorem head_of_takeWhile_nil {text : Text} (h : text.takeWhile t = []) :
    text.head?.any t = false := by
  have hsplit := List.takeWhile_append_dropWhile (p := t) (l := text)
  rw [h, List.nil_append] at hsplit
  rw [← hsplit]
  exact head_dropWhile t text

theorem matchAt_eq_some {p : Pattern} {before : Option Char} {offset : Nat}
    {groups : List (Nat × Text)} (s : Cursor) (hhere : s = ⟨before, x ++ r, offset, []⟩)
    (h : run p s some = some (s.past x r groups)) :
    p.matchAt before offset (x ++ r) = some ⟨offset, x, groups⟩ := by
  subst hhere
  rw [matchAt, h]
  simp

theorem matchAt_eq_none {p : Pattern} {before : Option Char} {text : Text}
    (h : ∀ x r, text = x ++ r → ¬p.Spans before x r) (offset : Nat) :
    p.matchAt before offset text = none := by
  rw [matchAt, Option.map_eq_none_iff]
  by_contra hsome
  obtain ⟨found, hfound⟩ := Option.ne_none_iff_exists'.1 hsome
  obtain ⟨x, r, -, htext, hspans, -⟩ := (faithful_run p).sound hfound
  exact h x r htext hspans

theorem run_lineStart {p : Pattern} (h : s.before = none) :
    run (seq lineStart p) s k = run p s k := by
  rw [run]
  exact if_pos (.inl h)

theorem run_one_cons {c : Char} (hrest : s.rest = c :: r) (hc : t c = true) :
    run (one t) s k = k (s.past [c] r s.groups) := by
  rw [run, hrest]
  simp only [hc, if_true]
  rfl

theorem run_one_none (h : s.rest.head?.any t = false) : run (one t) s k = none := by
  rw [run]
  cases hrest : s.rest with
  | nil => rfl
  | cons c r =>
    rw [hrest] at h
    have hc : t c = false := h
    simp [hc]

theorem run_lit {text : String} (hrest : s.rest = text.toList ++ r) :
    run (lit text) s k = k (s.past text.toList r s.groups) := by
  rw [lit]
  generalize text.toList = chars at hrest
  induction chars generalizing s with
  | nil =>
    obtain rfl : s.rest = r := hrest
    rfl
  | cons c chars ih =>
    cases chars with
    | nil => exact run_one_cons hrest (by simp)
    | cons d chars =>
      have hfirst := run_one_cons (s := s) (t := (· == c)) (r := d :: chars ++ r)
        (k := fun there => run (chain ((d :: chars).map fun c => one (· == c))) there k)
        hrest (by simp)
      have hmore := ih (s := s.past [c] (d :: chars ++ r) s.groups) rfl
      rw [Cursor.past_past] at hmore
      exact hfirst.trans hmore

theorem run_lit_none {text : String} (h : ¬text.toList <+: s.rest) :
    run (lit text) s k = none := by
  by_contra hsome
  obtain ⟨found, hfound⟩ := Option.ne_none_iff_exists'.1 hsome
  obtain ⟨x, r, -, hrest, hx, -⟩ := (faithful_run (lit text)).sound hfound
  rw [spans_lit] at hx
  exact h ⟨r, by rw [hrest, hx]⟩

theorem run_opt {p : Pattern} : run (opt p) s k = (run p s k).or (k s) := by
  rw [opt, run, run]
  cases run p s k <;> rfl

/-- Rounds of one character go to the end of a run, if nothing can follow before it or something can
follow there. -/
theorem greedy_most (hx : ∀ c ∈ x, t c = true) (hstop : r.head?.any t = false) :
    ∀ {n : Nat} {s : Cursor}, s.rest = x ++ r → s.rest.length ≤ n →
      (∀ y z, x = y ++ z → z ≠ [] → k (s.past y (z ++ r) s.groups) = none
        ∨ (k (s.past x r s.groups)).isSome) →
      greedy (run (one t)) n s k = k (s.past x r s.groups) := by
  induction x with
  | nil =>
    intro n s hrest hn _
    obtain rfl : s.rest = r := hrest
    rw [Cursor.past_nil]
    cases hrest : s.rest with
    | nil => exact greedy_one_nil hrest n
    | cons c tail =>
      rw [hrest, List.length_cons] at hn
      obtain ⟨n, rfl⟩ : ∃ k, n = k + 1 := ⟨n - 1, by omega⟩
      have hc : t c = false := by simpa [hrest] using hstop
      rw [greedy_one_cons hrest, if_neg (by simp [hc])]
  | cons c x ih =>
    intro n s hrest hn hfollow
    obtain ⟨hc, hx⟩ := List.forall_mem_cons.1 hx
    rw [List.cons_append] at hrest
    rw [hrest, List.length_cons] at hn
    obtain ⟨n, rfl⟩ : ∃ k, n = k + 1 := ⟨n - 1, by omega⟩
    have hpast (w r' : Text) :
        (s.advance c (x ++ r)).past w r' (s.advance c (x ++ r)).groups
          = s.past (c :: w) r' s.groups := Cursor.past_cons ..
    have hmore : greedy (run (one t)) n (s.advance c (x ++ r)) k
        = k (s.past (c :: x) r s.groups) := by
      rw [← hpast x r]
      refine ih hx rfl (Nat.le_of_succ_le_succ hn) fun y z hyz hz => ?_
      rw [hpast, hpast]
      exact hfollow (c :: y) z (by rw [hyz]; rfl) hz
    rw [greedy_one_cons hrest, if_pos hc, hmore]
    rcases hfollow [] (c :: x) rfl (by simp) with hnone | hsome
    · have hhere : s.past [] (c :: x ++ r) s.groups = s := by
        rw [List.cons_append, ← hrest, Cursor.past_nil]
      rw [hhere] at hnone
      rw [hnone, Option.or_none]
    · obtain ⟨found, hfound⟩ := Option.isSome_iff_exists.1 hsome
      rw [hfound, Option.some_or]

/-- A run is taken to its end, if what follows cannot start with one of its characters. -/
theorem run_many_skip (hrest : s.rest = x ++ r) (hx : ∀ c ∈ x, t c = true)
    (hstop : r.head?.any t = false)
    (hfail : ∀ {there : Cursor}, there.rest.head?.any t = true → k there = none) :
    run (many (one t)) s k = k (s.past x r s.groups) := by
  refine greedy_most hx hstop hrest (Nat.le_refl _) fun y z hyz hz => .inl (hfail ?_)
  obtain ⟨c, z, rfl⟩ := List.exists_cons_of_ne_nil hz
  exact hx c (by simp [hyz])

/-- A run is taken to its end, if the match can go on from there. -/
theorem run_many_most (hrest : s.rest = x ++ r) (hx : ∀ c ∈ x, t c = true)
    (hstop : r.head?.any t = false)
    (hsome : (k (s.past x r s.groups)).isSome = true) :
    run (many (one t)) s k = k (s.past x r s.groups) :=
  greedy_most hx hstop hrest (Nat.le_refl _) fun _ _ _ _ => .inr hsome

theorem run_many1_skip (hrest : s.rest = x ++ r) (hne : x ≠ [])
    (hx : ∀ c ∈ x, t c = true) (hstop : r.head?.any t = false)
    (hfail : ∀ {there : Cursor}, there.rest.head?.any t = true → k there = none) :
    run (many1 (one t)) s k = k (s.past x r s.groups) := by
  obtain ⟨c, x, rfl⟩ := List.exists_cons_of_ne_nil hne
  obtain ⟨hc, hx⟩ := List.forall_mem_cons.1 hx
  have hfirst := run_one_cons (k := fun there => run (many (one t)) there k) hrest hc
  refine hfirst.trans ((run_many_skip (x := x) rfl hx hstop hfail).trans ?_)
  rw [Cursor.past_groups, Cursor.past_past, List.singleton_append]

theorem run_many1_most (hrest : s.rest = x ++ r) (hne : x ≠ [])
    (hx : ∀ c ∈ x, t c = true) (hstop : r.head?.any t = false)
    (hsome : (k (s.past x r s.groups)).isSome = true) :
    run (many1 (one t)) s k = k (s.past x r s.groups) := by
  obtain ⟨c, x, rfl⟩ := List.exists_cons_of_ne_nil hne
  obtain ⟨hc, hx⟩ := List.forall_mem_cons.1 hx
  have hfirst := run_one_cons (k := fun there => run (many (one t)) there k) hrest hc
  have hpast (mid : Text) : (s.past [c] mid s.groups).past x r s.groups
      = s.past (c :: x) r s.groups := Cursor.past_past ..
  refine hfirst.trans ((run_many_most (x := x) rfl hx hstop ?_).trans ?_)
  · rw [Cursor.past_groups, hpast]
    exact hsome
  · rw [Cursor.past_groups, hpast]

theorem take_past (hrest : s.rest = x ++ r) :
    s.rest.take (s.offset + x.length - s.offset) = x := by
  rw [Nat.add_sub_cancel_left, hrest, List.take_left]

theorem run_group_many1_skip {i : Nat} (hrest : s.rest = x ++ r) (hne : x ≠ [])
    (hx : ∀ c ∈ x, t c = true) (hstop : r.head?.any t = false)
    (hfail : ∀ {there : Cursor}, there.rest.head?.any t = true → k there = none) :
    run (group i (many1 (one t))) s k
      = k (s.past x r ((i, x) :: s.groups)) := by
  have hbody := run_many1_skip hrest hne hx hstop (k := fun there => k { there with
    groups := (i, s.rest.take (there.offset - s.offset)) :: there.groups })
    fun hthere => hfail hthere
  rw [Cursor.past_offset, take_past hrest] at hbody
  exact hbody

theorem run_group_many_skip {i : Nat} (hrest : s.rest = x ++ r) (hx : ∀ c ∈ x, t c = true)
    (hstop : r.head?.any t = false)
    (hfail : ∀ {there : Cursor}, there.rest.head?.any t = true → k there = none) :
    run (group i (many (one t))) s k = k (s.past x r ((i, x) :: s.groups)) := by
  have hbody := run_many_skip hrest hx hstop (k := fun there => k { there with
    groups := (i, s.rest.take (there.offset - s.offset)) :: there.groups })
    fun hthere => hfail hthere
  rw [Cursor.past_offset, take_past hrest] at hbody
  exact hbody

theorem run_many1_none (h : s.rest.head?.any t = false) :
    run (many1 (one t)) s k = none := by
  rw [many1, run, run_one_none h]

theorem reluctant_first (hx : ∀ c ∈ x, t c = true) :
    ∀ {n : Nat} {s : Cursor}, s.rest = x ++ r → x.length ≤ n →
      (∀ y z, x = y ++ z → z ≠ [] → k (s.past y (z ++ r) s.groups) = none) →
      (k (s.past x r s.groups)).isSome = true →
      reluctant (run (one t)) n s k = k (s.past x r s.groups) := by
  induction x with
  | nil =>
    intro n s hrest _ _ hsome
    obtain rfl : s.rest = r := hrest
    rw [Cursor.past_nil] at hsome ⊢
    obtain ⟨found, hfound⟩ := Option.isSome_iff_exists.1 hsome
    cases n with
    | zero => rfl
    | succ n => rw [reluctant, hfound]
  | cons c x ih =>
    intro n s hrest hn hfail hsome
    obtain ⟨hc, hx⟩ := List.forall_mem_cons.1 hx
    obtain ⟨n, rfl⟩ : ∃ k, n = k + 1 := ⟨n - 1, by rw [List.length_cons] at hn; omega⟩
    rw [List.cons_append] at hrest
    have hpast (w r' : Text) :
        (s.advance c (x ++ r)).past w r' (s.advance c (x ++ r)).groups
          = s.past (c :: w) r' s.groups := Cursor.past_cons ..
    have hhere : k s = none := by
      have hstart := hfail [] (c :: x) rfl (List.cons_ne_nil c x)
      rwa [List.cons_append, ← hrest, Cursor.past_nil] at hstart
    have hmoved : s.offset < (s.advance c (x ++ r)).offset := Nat.lt_succ_self _
    rw [reluctant, hhere, run, hrest]
    simp only [hc, if_true, hmoved]
    rw [← hpast x r]
    refine ih hx rfl (Nat.le_of_succ_le_succ hn) (fun y z hyz hz => ?_) (by rwa [hpast])
    rw [hpast]
    exact hfail (c :: y) z (by rw [hyz]; rfl) hz

theorem run_few_first (hrest : s.rest = x ++ r) (hx : ∀ c ∈ x, t c = true)
    (hfail : ∀ y z, x = y ++ z → z ≠ [] → k (s.past y (z ++ r) s.groups) = none)
    (hsome : (k (s.past x r s.groups)).isSome = true) :
    run (few (one t)) s k = k (s.past x r s.groups) :=
  reluctant_first hx hrest (by simp [hrest]) hfail hsome

theorem run_few1_first (hrest : s.rest = x ++ r) (hne : x ≠ []) (hx : ∀ c ∈ x, t c = true)
    (hfail : ∀ y z, x = y ++ z → z ≠ [] → k (s.past y (z ++ r) s.groups) = none)
    (hsome : (k (s.past x r s.groups)).isSome = true) :
    run (few1 (one t)) s k = k (s.past x r s.groups) := by
  obtain ⟨c, x, rfl⟩ := List.exists_cons_of_ne_nil hne
  obtain ⟨hc, hx⟩ := List.forall_mem_cons.1 hx
  have hfirst := run_one_cons (k := fun there => run (few (one t)) there k) hrest hc
  have hpast (y mid r' : Text) : (s.past [c] mid s.groups).past y r' (s.past [c] mid s.groups).groups
      = s.past (c :: y) r' s.groups := Cursor.past_past ..
  refine hfirst.trans ((run_few_first (x := x) rfl hx (fun y z hyz hz => ?_) ?_).trans ?_)
  · rw [hpast]
    exact hfail (c :: y) z (by rw [hyz]; rfl) hz
  · rwa [hpast]
  · rw [hpast]

theorem run_group_few1_first {i : Nat} (hrest : s.rest = x ++ r) (hne : x ≠ [])
    (hx : ∀ c ∈ x, t c = true)
    (hfail : ∀ y z, x = y ++ z → z ≠ [] → k (s.past y (z ++ r) ((i, y) :: s.groups)) = none)
    (hsome : (k (s.past x r ((i, x) :: s.groups))).isSome = true) :
    run (group i (few1 (one t))) s k = k (s.past x r ((i, x) :: s.groups)) := by
  have htaken {y z : Text} (hyz : x = y ++ z) :
      s.rest.take (s.offset + y.length - s.offset) = y :=
    take_past (by rw [hrest, hyz, List.append_assoc])
  have hkept {y z : Text} (hyz : x = y ++ z) (r' : Text) :
      k { s.past y r' s.groups with
        groups := (i, s.rest.take ((s.past y r' s.groups).offset - s.offset)) :: s.groups }
      = k (s.past y r' ((i, y) :: s.groups)) := by
    rw [Cursor.past_offset, htaken hyz]
    rfl
  have hbody := run_few1_first hrest hne hx (k := fun there => k { there with
    groups := (i, s.rest.take (there.offset - s.offset)) :: there.groups })
    (fun y z hyz hz => (hkept hyz _).trans (hfail y z hyz hz))
    (by rw [← hkept (List.append_nil x).symm] at hsome; exact hsome)
  exact hbody.trans (hkept (List.append_nil x).symm r)

/-! ## What later patterns leave of a group -/

/-- Whether a pattern remembers something under a number. -/
def sets (i : Nat) : Pattern → Bool
  | seq p q | alt p q => p.sets i || q.sets i
  | many p | few p => p.sets i
  | group j p => i == j || p.sets i
  | empty | one _ | wordEdge | lineStart | finish | notAhead _ => false

/-- A matcher goes on with what is remembered under a number as it was. -/
def Keeps (i : Nat) (step : Cursor → (Cursor → Option Cursor) → Option Cursor) : Prop :=
  ∀ {here next found}, step here next = some found →
    ∃ there, next there = some found ∧ there.groups.lookup i = here.groups.lookup i

theorem Keeps.greedy {i : Nat} {step : Cursor → (Cursor → Option Cursor) → Option Cursor}
    (h : Keeps i step) (rounds : Nat) : Keeps i (greedy step rounds) := by
  induction rounds with
  | zero => exact fun hrun => ⟨_, hrun, rfl⟩
  | succ rounds ih =>
    intro here next found hrun
    rw [Pattern.greedy] at hrun
    split at hrun
    · rename_i other hround
      obtain rfl := Option.some.inj hrun
      obtain ⟨mid, hmid, hgroups⟩ := h hround
      split_ifs at hmid
      obtain ⟨there, hthere, hlater⟩ := ih hmid
      exact ⟨there, hthere, hlater.trans hgroups⟩
    · exact ⟨here, hrun, rfl⟩

theorem Keeps.reluctant {i : Nat} {step : Cursor → (Cursor → Option Cursor) → Option Cursor}
    (h : Keeps i step) (rounds : Nat) : Keeps i (reluctant step rounds) := by
  induction rounds with
  | zero => exact fun hrun => ⟨_, hrun, rfl⟩
  | succ rounds ih =>
    intro here next found hrun
    rw [Pattern.reluctant] at hrun
    split at hrun
    · rename_i other hdone
      obtain rfl := Option.some.inj hrun
      exact ⟨here, hdone, rfl⟩
    · obtain ⟨mid, hmid, hgroups⟩ := h hrun
      split_ifs at hmid
      obtain ⟨there, hthere, hlater⟩ := ih hmid
      exact ⟨there, hthere, hlater.trans hgroups⟩

/-- A pattern that does not set a group leaves it. -/
theorem keeps_run {i : Nat} (p : Pattern) (h : p.sets i = false) : Keeps i p.run := by
  induction p with
  | empty => exact fun hrun => ⟨_, hrun, rfl⟩
  | one test =>
    intro here next found hrun
    rw [run] at hrun
    split at hrun
    · simp at hrun
    · split_ifs at hrun
      exact ⟨_, hrun, rfl⟩
  | seq p q hp hq =>
    obtain ⟨h₁, h₂⟩ := Bool.or_eq_false_iff.1 h
    intro here next found hrun
    obtain ⟨mid, hmid, hgroups⟩ := hp h₁ hrun
    obtain ⟨there, hthere, hlater⟩ := hq h₂ hmid
    exact ⟨there, hthere, hlater.trans hgroups⟩
  | alt p q hp hq =>
    obtain ⟨h₁, h₂⟩ := Bool.or_eq_false_iff.1 h
    intro here next found hrun
    rw [run] at hrun
    split at hrun
    · rename_i other hfirst
      obtain rfl := Option.some.inj hrun
      exact hp h₁ hfirst
    · exact hq h₂ hrun
  | many p hp => exact fun hrun => Keeps.greedy (hp h) _ hrun
  | few p hp => exact fun hrun => Keeps.reluctant (hp h) _ hrun
  | group j p hp =>
    obtain ⟨hne, h₂⟩ := Bool.or_eq_false_iff.1 h
    intro here next found hrun
    obtain ⟨there, hthere, hgroups⟩ := hp h₂ hrun
    refine ⟨_, hthere, ?_⟩
    rw [List.lookup_cons, hne]
    exact hgroups
  | wordEdge | lineStart | finish =>
    intro here next found hrun
    rw [run] at hrun
    split_ifs at hrun
    exact ⟨here, hrun, rfl⟩
  | notAhead p =>
    intro here next found hrun
    rw [run] at hrun
    split at hrun
    · simp at hrun
    · exact ⟨here, hrun, rfl⟩

theorem lookup_of_run_group {i : Nat} {p q : Pattern} (hq : q.sets i = false) {found : Cursor}
    (h : run (group i p) s (fun there => run q there some) = some found) :
    ∃ x r, s.rest = x ++ r ∧ p.Spans s.before x r ∧ q.Begins (lastOf s.before x) r
      ∧ found.groups.lookup i = some x := by
  obtain ⟨x, r, groups, hrest, hx, hlater⟩ := (faithful_run p).sound h
  rw [Cursor.past_offset, take_past hrest] at hlater
  obtain ⟨y, rest, -, hmore, hy, -⟩ := (faithful_run q).sound hlater
  obtain ⟨there, hthere, hgroups⟩ := keeps_run q hq hlater
  obtain rfl := Option.some.inj hthere
  exact ⟨x, r, hrest, hx, ⟨y, rest, hmore, hy⟩, by simpa using hgroups⟩

end SourceLens.Pattern
