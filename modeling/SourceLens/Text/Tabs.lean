import SourceLens.Text.Basic

/-!
# Tabs

Tab stops stand at every eighth column. A tab is worth the spaces up to the next stop, and a line
feed or carriage return starts the columns again.
-/

namespace SourceLens.Text

def tabWidth : Nat := 8

/-- Replaces tabs by spaces in a text that starts at column `column`. -/
def expandTabsFrom : Nat → Text → Text
  | _, [] => []
  | column, c :: rest =>
    if c = '\t' then
      let gap := tabWidth - column % tabWidth
      spaces gap ++ expandTabsFrom (column + gap) rest
    else if c = '\n' ∨ c = '\r' then c :: expandTabsFrom 0 rest
    else c :: expandTabsFrom (column + 1) rest

def expandTabs (text : Text) : Text := expandTabsFrom 0 text

theorem tab_not_mem_expandTabsFrom (column : Nat) (text : Text) :
    '\t' ∉ expandTabsFrom column text := by
  fun_induction expandTabsFrom column text with
  | case1 => simp
  | case2 column rest gap ih => simp [spaces, ih]
  | case3 column c rest hc hb ih => simp [ih, Ne.symm hc]
  | case4 column c rest hc hb ih => simp [ih, Ne.symm hc]

/-- `_indent_of`: the column of the first character that is not a space, tabs counted as spaces. -/
def indentation (line : Text) : Nat := ((expandTabs line).takeWhile (· = ' ')).length

end SourceLens.Text
