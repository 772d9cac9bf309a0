import Mathlib.Data.List.Infix
import Mathlib.Tactic.Common
import Mathlib.Tactic.Ring
import MaterialGraph.Text.Lines

/-!
# Lines and what occurs in them

A pattern that has no line feed occurs in a text of lines just if it occurs in one of the lines
(`infix_unlines_iff`).  The other way round, a line of a text is a part of the text that starts
where the text starts or right after a line feed (`exists_append_of_mem_lines`).

Line feeds separate: the lines up to a line feed do not depend on what comes after it
(`lines_append_feed`), there is one more of them than line feeds before it
(`length_lines_append_feed`), and no line has a line feed itself, so that the line feeds of a text
of lines can be counted (`count_unlines_indented`).
-/

namespace MaterialGraph.Text

/-- The search for a pattern finds it just if it is a part of the text. -/
lemma occurs_iff_infix {pattern cs : List Char} : occurs pattern cs = true ↔ pattern <:+: cs := by
  induction cs with
  | nil =>
    rw [occurs, List.isEmpty_iff, List.infix_nil]
  | cons c cs ih =>
    rw [occurs, Bool.or_eq_true, List.isPrefixOf_iff_prefix, ih, List.infix_cons_iff]

/-- A pattern without a certain character lies on one side of that character. -/
lemma infix_append_cons_iff {pattern before after : List Char} {c : Char} (hc : c ∉ pattern) :
    pattern <:+: before ++ c :: after ↔ pattern <:+: before ∨ pattern <:+: after := by
  have hstart : ∀ part : List Char, c ∉ part → part <+: c :: after → part = [] := by
    intro part hpart h
    rcases List.prefix_cons_iff.mp h with hnil | ⟨rest, rfl, _⟩
    · exact hnil
    · exact absurd List.mem_cons_self hpart
  constructor
  · intro h
    rcases List.infix_append_iff.mp h with h | h | ⟨left, right, rfl, hleft, hright⟩
    · exact Or.inl h
    · rcases List.infix_cons_iff.mp h with h | h
      · rw [hstart pattern hc h]
        exact Or.inl (List.nil_infix)
      · exact Or.inr h
    · -- the character would be in the part after the cut
      have hnil : right = [] :=
        hstart right (fun hmem => hc (List.mem_append_right _ hmem)) hright
      rw [hnil, List.append_nil]
      exact Or.inl hleft.isInfix
  · rintro (h | h)
    · exact h.trans (List.prefix_append _ _).isInfix
    · exact h.trans ((List.suffix_cons c after).trans (List.suffix_append _ _)).isInfix

/-- A pattern without line feeds occurs in a text of lines just if it occurs in one of them. -/
lemma infix_unlines_iff {pattern : List Char} (hne : pattern ≠ []) (hfeed : '\n' ∉ pattern)
    {ls : List String} : pattern <:+: (unlines ls).toList ↔ ∃ l ∈ ls, pattern <:+: l.toList := by
  induction ls with
  | nil => simp [unlines, hne]
  | cons l ls ih =>
    have hcons : (unlines (l :: ls)).toList = l.toList ++ '\n' :: (unlines ls).toList := by
      simp [unlines]
    rw [hcons, infix_append_cons_iff hfeed, ih]
    simp

/-- A line, given backwards, without its carriage return is what comes first in it. -/
lemma exists_reverse_eq_dropReturn (start : List Char) :
    ∃ rest, start.reverse = (dropReturn start).reverse ++ rest := by
  unfold dropReturn
  split
  · exact ⟨['\r'], by simp⟩
  · exact ⟨[], by simp⟩

/-- A line is a part of the text, which starts with it or has a line feed right before it. -/
lemma exists_append_of_mem_linesFrom {start cs line : List Char} (h : line ∈ linesFrom start cs) :
    ∃ before after, start.reverse ++ cs = before ++ line ++ after ∧
      (before = [] ∨ ∃ init, before = init ++ ['\n']) := by
  induction cs generalizing start with
  | nil =>
    unfold linesFrom at h
    split at h
    · simp at h
    · obtain rfl := List.mem_singleton.mp h
      exact ⟨[], [], by simp, Or.inl rfl⟩
  | cons c cs ih =>
    unfold linesFrom at h
    split at h
    · rename_i hc
      rcases List.mem_cons.mp h with rfl | h
      · obtain ⟨rest, hrest⟩ := exists_reverse_eq_dropReturn start
        exact ⟨[], rest ++ c :: cs, by simp [hrest], Or.inl rfl⟩
      · obtain ⟨before, after, hsplit, hbefore⟩ := ih h
        refine ⟨start.reverse ++ c :: before, after, by simpa using hsplit, Or.inr ?_⟩
        rcases hbefore with rfl | ⟨init, rfl⟩
        · exact ⟨start.reverse, by rw [hc]⟩
        · exact ⟨start.reverse ++ c :: init, by simp⟩
    · obtain ⟨before, after, hsplit, hbefore⟩ := ih h
      exact ⟨before, after, by simpa using hsplit, hbefore⟩

/-- A line of a text is a part of it, which starts with the line or has a line feed right before
it. -/
lemma exists_append_of_mem_lines {s line : String} (h : line ∈ lines s) :
    ∃ before after, s.toList = before ++ line.toList ++ after ∧
      (before = [] ∨ ∃ init, before = init ++ ['\n']) := by
  obtain ⟨cs, hcs, rfl⟩ := List.mem_map.mp h
  rw [String.toList_ofList]
  exact exists_append_of_mem_linesFrom hcs

/-! ### Counting lines -/

/-- The lines up to a line feed do not depend on what comes after it. -/
lemma linesFrom_append_feed (start cs rest : List Char) :
    linesFrom start (cs ++ '\n' :: rest) = linesFrom start (cs ++ ['\n']) ++ linesFrom [] rest := by
  induction cs generalizing start with
  | nil => simp [linesFrom]
  | cons c cs ih =>
    by_cases hc : c = '\n'
    · simp [linesFrom, hc, ih]
    · simp [linesFrom, hc, ih]

/-- The lines of a text that has a line feed are those before and those after it. -/
lemma lines_append_feed (s t : String) : lines (s ++ "\n" ++ t) = lines (s ++ "\n") ++ lines t := by
  have hsplit : (s ++ "\n" ++ t).toList = s.toList ++ '\n' :: t.toList := by simp
  have hbefore : (s ++ "\n").toList = s.toList ++ ['\n'] := by simp
  unfold lines
  rw [hsplit, hbefore, linesFrom_append_feed, List.map_append]

/-- A line feed makes a line of what is before it and after the line feed before that. -/
lemma length_linesFrom_append_feed (start cs : List Char) :
    (linesFrom start (cs ++ ['\n'])).length = cs.count '\n' + 1 := by
  induction cs generalizing start with
  | nil => simp [linesFrom]
  | cons c cs ih =>
    by_cases hc : c = '\n'
    · simp [linesFrom, hc, ih]
    · simp [linesFrom, hc, ih]

/-- A text that is ended by a line feed has one more line than line feeds before. -/
lemma length_lines_append_feed (s : String) :
    (lines (s ++ "\n")).length = s.toList.count '\n' + 1 := by
  have hsplit : (s ++ "\n").toList = s.toList ++ ['\n'] := by simp
  unfold lines
  rw [hsplit, List.length_map, length_linesFrom_append_feed]

/-- A line has no line feed if what it starts with has none. -/
lemma feed_notMem_of_mem_linesFrom {start cs line : List Char} (hstart : '\n' ∉ start)
    (h : line ∈ linesFrom start cs) : '\n' ∉ line := by
  induction cs generalizing start with
  | nil =>
    unfold linesFrom at h
    split at h
    · simp at h
    · obtain rfl := List.mem_singleton.mp h
      simpa using hstart
  | cons c cs ih =>
    unfold linesFrom at h
    split at h
    · rcases List.mem_cons.mp h with rfl | h
      · obtain ⟨rest, hrest⟩ := exists_reverse_eq_dropReturn start
        intro hmem
        have hin : '\n' ∈ start.reverse := by
          rw [hrest]
          exact List.mem_append_left _ hmem
        exact hstart (List.mem_reverse.mp hin)
      · exact ih List.not_mem_nil h
    · rename_i hc
      refine ih (fun hmem => ?_) h
      rcases List.mem_cons.mp hmem with hfeed | hmem
      · exact hc hfeed.symm
      · exact hstart hmem

/-- A line of a text has no line feed. -/
lemma feed_notMem_of_mem_lines {s line : String} (h : line ∈ lines s) : '\n' ∉ line.toList := by
  obtain ⟨cs, hcs, rfl⟩ := List.mem_map.mp h
  rw [String.toList_ofList]
  exact feed_notMem_of_mem_linesFrom List.not_mem_nil hcs

/-- A text of lines is put together from texts of some of them. -/
lemma unlines_append (as bs : List String) : unlines (as ++ bs) = unlines as ++ unlines bs := by
  induction as with
  | nil => simp [unlines]
  | cons a as ih =>
    have hcons : ∀ ls, unlines (a :: ls) = a ++ "\n" ++ unlines ls := fun _ => rfl
    rw [List.cons_append, hcons, hcons, ih]
    exact String.append_assoc.symm

/-- Lines after an indent have the line feeds of the indent and one more each. -/
lemma count_unlines_indented {indent : String} {ls : List String}
    (hls : ∀ l ∈ ls, '\n' ∉ l.toList) :
    (unlines (ls.map (indent ++ ·))).toList.count '\n' =
      ls.length * (indent.toList.count '\n' + 1) := by
  induction ls with
  | nil => simp [unlines]
  | cons l ls ih =>
    rw [List.forall_mem_cons] at hls
    have hcons : unlines ((l :: ls).map (indent ++ ·)) =
        indent ++ l ++ "\n" ++ unlines (ls.map (indent ++ ·)) := rfl
    have hl : l.toList.count '\n' = 0 := List.count_eq_zero.mpr hls.1
    rw [hcons]
    simp only [String.toList_append, List.count_append, hl, ih hls.2, List.length_cons]
    have hfeed : "\n".toList.count '\n' = 1 := by decide
    rw [hfeed]
    ring

end MaterialGraph.Text
