import SourceLens.Proofs.Text.LowerCase

/-!
# Lower case is final

No character of a lower-case form stands in a run of the table, and none is one of the two exceptions
(`isLower_of_mem_lowerFrom`), and a text of such characters is its own form (`lower_of_isLower`). A sign that precedes the letters in
ASCII stands in the lower-case form exactly if it stands in the text (`mem_lower`).
-/

namespace SourceLens.Text

/-! ## The table -/

/-- Whether no run of a table holds a number of the run from `first` to `last`, in steps of `step`. -/
def avoids (first last step : Nat) : CaseTable → Bool
  | [] => true
  | (lo, hi, stride, _) :: rest =>
    bif hi.blt first then avoids first last step rest
    else bif last.blt lo then true
    else step % 2 == 0 && stride % 2 == 0 && first % 2 != lo % 2 && avoids first last step rest

theorem image_of_avoids {first last step n : Nat} (hfirst : first ≤ n) (hlast : n ≤ last)
    (hn : (n - first) % step = 0) {table : CaseTable}
    (h : avoids first last step table = true) : table.image n = n := by
  induction table with
  | nil => rfl
  | cons row rest ih =>
    obtain ⟨lo, hi, stride, target⟩ := row
    rw [avoids] at h
    rw [CaseTable.image]
    split_ifs with hlow hrow
    · rfl
    · -- a number of both runs would have two parities
      exfalso
      rw [cond_eq_ite, if_neg (by rw [Nat.blt_eq]; omega), cond_eq_ite,
        if_neg (by rw [Nat.blt_eq]; omega)] at h
      simp only [Bool.and_eq_true, beq_iff_eq, bne_iff_ne] at h
      obtain ⟨⟨⟨hstep, hstride⟩, hparity⟩, -⟩ := h
      have htwo : 2 ∣ n - first :=
        Nat.dvd_trans (Nat.dvd_of_mod_eq_zero hstep) (Nat.dvd_of_mod_eq_zero hn)
      have htwo' : 2 ∣ n - lo :=
        Nat.dvd_trans (Nat.dvd_of_mod_eq_zero hstride) (Nat.dvd_of_mod_eq_zero hrow.2)
      omega
    · cases hhi : hi.blt first with
      | true => exact ih (by simpa [hhi] using h)
      | false =>
        cases hlo : last.blt lo with
        | true =>
          rw [Nat.blt_eq] at hlo
          omega
        | false =>
          simp only [hhi, hlo, cond_false, Bool.and_eq_true] at h
          exact ih h.2

theorem image_cases (table : CaseTable) (n : Nat) :
    table.image n = n ∨ ∃ row ∈ table, row.1 ≤ n ∧ n ≤ row.2.1 ∧ (n - row.1) % row.2.2.1 = 0
      ∧ table.image n = row.2.2.2 + (n - row.1) := by
  induction table with
  | nil => exact .inl rfl
  | cons row rest ih =>
    obtain ⟨lo, hi, step, target⟩ := row
    rw [CaseTable.image]
    split_ifs with hlow hrow
    · exact .inl rfl
    · exact .inr ⟨_, List.mem_cons_self, by omega, hrow.1, hrow.2, rfl⟩
    · rcases ih with hsame | ⟨row, hmem, hheld⟩
      · exact .inl hsame
      · exact .inr ⟨row, List.mem_cons_of_mem _ hmem, hheld⟩

theorem image_image (n : Nat) : lowerTable.image (lowerTable.image n) = lowerTable.image n := by
  have hrows : ∀ row ∈ lowerTable, avoids row.2.2.2 (row.2.2.2 + (row.2.1 - row.1))
      (bif row.1.beq row.2.1 then 2 else row.2.2.1) lowerTable = true := by
    decide +kernel
  rcases image_cases lowerTable n with hsame | ⟨row, hmem, hlow, hhigh, hstep, himage⟩
  · rw [hsame, hsame]
  · rw [himage]
    refine image_of_avoids (by omega) (by omega) ?_ (hrows row hmem)
    rw [Nat.add_sub_cancel_left]
    cases hone : row.1.beq row.2.1 with
    | true =>
      have hsingle : row.1 = row.2.1 := Nat.eq_of_beq_eq_true hone
      have hzero : n - row.1 = 0 := by omega
      rw [hzero, Nat.zero_mod]
    | false => exact hstep

theorem image_valid {n : Nat} (hn : n.isValidChar) (hdotted : n ≠ dottedCapitalI.toNat) :
    (lowerTable.image n).isValidChar ∧ lowerTable.image n ≠ dottedCapitalI.toNat := by
  have hrows : ∀ row ∈ lowerTable,
      (row.2.2.2 + (row.2.1 - row.1) < 0x130
        ∨ 0x130 < row.2.2.2 ∧ row.2.2.2 + (row.2.1 - row.1) < 0xd800
        ∨ 0xdfff < row.2.2.2 ∧ row.2.2.2 + (row.2.1 - row.1) < 0x110000)
      ∨ row.2.2.2 % 2 = 1 ∧ row.2.2.1 = 2 ∧ row.2.2.2 + (row.2.1 - row.1) < 0xd800 := by
    decide +kernel
  rcases image_cases lowerTable n with hsame | ⟨row, hmem, hlow, hhigh, hstep, himage⟩
  · rw [hsame]
    exact ⟨hn, hdotted⟩
  · have hrow := hrows row hmem
    have hnumber : dottedCapitalI.toNat = 0x130 := rfl
    rw [himage, hnumber, Nat.isValidChar]
    rcases hrow with hrow | ⟨hodd, htwo, hbound⟩
    · omega
    · rw [htwo] at hstep
      omega

/-! ## Characters and texts -/

/-- Whether a character is its own lower-case form wherever it stands. -/
def IsLower (c : Char) : Prop := ∀ before after, lowerChar before c after = [c]

theorem isLower_iff {c : Char} (hdotted : c ≠ dottedCapitalI) (hsigma : c ≠ capitalSigma) :
    IsLower c ↔ Char.ofNat (lowerTable.image c.toNat) = c := by
  simp [IsLower, lowerChar, hdotted, hsigma]

theorem isLower_ofNat_image {c : Char} (hc : c ≠ dottedCapitalI) :
    IsLower (Char.ofNat (lowerTable.image c.toNat)) := by
  have hvalid : (lowerTable.image c.toNat).isValidChar
      ∧ lowerTable.image c.toNat ≠ dottedCapitalI.toNat :=
    image_valid c.valid fun h => hc (Char.toNat_inj.1 h)
  have hnumber : (Char.ofNat (lowerTable.image c.toNat)).toNat = lowerTable.image c.toNat := by
    rw [Char.ofNat, dif_pos hvalid.1]
    rfl
  have hdotted : Char.ofNat (lowerTable.image c.toNat) ≠ dottedCapitalI := by
    intro h
    rw [h] at hnumber
    exact hvalid.2 hnumber.symm
  have hsigma : Char.ofNat (lowerTable.image c.toNat) ≠ capitalSigma := by
    intro h
    have hagain := image_image c.toNat
    rw [h] at hnumber
    rw [← hnumber] at hagain
    exact absurd hagain (by decide)
  rw [isLower_iff hdotted hsigma, hnumber, image_image]

theorem isLower_of_mem_lowerChar {before after : Text} {c d : Char}
    (h : d ∈ lowerChar before c after) : IsLower d := by
  rw [lowerChar] at h
  split_ifs at h with hdotted hsigma
  · obtain rfl | rfl : d = 'i' ∨ d = '\u0307' := by simpa using h
    · exact (isLower_iff (by decide) (by decide)).2 (by decide)
    · exact (isLower_iff (by decide) (by decide)).2 (by decide)
  · obtain rfl := List.mem_singleton.1 h
    exact (isLower_iff (by decide) (by decide)).2 (by decide)
  · obtain rfl := List.mem_singleton.1 h
    exact (isLower_iff (by decide) (by decide)).2 (by decide)
  · obtain rfl := List.mem_singleton.1 h
    exact isLower_ofNat_image hdotted

theorem isLower_of_mem_lowerFrom {text : Text} {d : Char} :
    ∀ {before}, d ∈ lowerFrom before text → IsLower d := by
  induction text with
  | nil =>
    intro before h
    exact absurd h List.not_mem_nil
  | cons c rest ih =>
    intro before h
    rcases List.mem_append.1 h with h | h
    · exact isLower_of_mem_lowerChar h
    · exact ih h

theorem lowerFrom_of_isLower {text : Text} (h : ∀ c ∈ text, IsLower c) (before : Text) :
    lowerFrom before text = text := by
  induction text generalizing before with
  | nil => rfl
  | cons c rest ih =>
    obtain ⟨hc, hrest⟩ := List.forall_mem_cons.1 h
    rw [lowerFrom, hc, ih hrest]
    rfl

theorem lower_of_isLower {text : Text} (h : ∀ c ∈ text, IsLower c) : lower text = text :=
  lowerFrom_of_isLower h []

theorem lower_eq_nil {text : Text} : lower text = [] ↔ text = [] := by
  cases text with
  | nil => exact iff_of_true rfl rfl
  | cons c rest =>
    refine iff_of_false ?_ (List.cons_ne_nil c rest)
    rw [lower, lowerFrom, lowerChar]
    split_ifs <;> simp

theorem toLower_of_lt {c : Char} (hc : c.toNat < 'A'.toNat) : c.toLower = c := by
  refine dif_neg ?_
  rintro ⟨hlow, -⟩
  have hle : 'A'.toNat ≤ c.toNat := hlow
  omega

/-- A sign before the letters is the lower-case form of itself only. -/
theorem mem_lower {t : Char} (ht : IsTagChar t) (hsign : t.toNat < 'A'.toNat) {text : Text} :
    t ∈ lower text ↔ t ∈ text := by
  have hfrom : ∀ before, t ∈ lowerFrom before text ↔ t ∈ text := by
    induction text with
    | nil => exact fun _ => Iff.rfl
    | cons c rest ih =>
      intro before
      rw [lowerFrom, List.mem_append, ih, List.mem_cons]
      refine or_congr_left ?_
      by_cases hdotted : c = dottedCapitalI
      · subst hdotted
        have hlower : lowerChar before dottedCapitalI rest = ['i', '\u0307'] := rfl
        refine iff_of_false ?_ (ht.ne_of_le (by decide)).symm
        simpa [hlower] using ⟨ht.2.2.2, (ht.ne_of_le (d := '\u0307') (by decide)).symm⟩
      · obtain ⟨d, hlower, hd⟩ := lowerChar_eq ht hdotted before rest
        rw [hlower, List.mem_singleton, eq_comm, hd]
        constructor
        · exact fun h => (eq_of_toLower_eq h hsign).symm
        · rintro rfl
          exact toLower_of_lt hsign
  exact hfrom []

end SourceLens.Text
