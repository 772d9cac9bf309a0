import Mathlib.Data.List.Basic
import Mathlib.Tactic.Common
import MaterialGraph.Kind.Formula

/-!
# The characters of a formula's text

Which characters the text of a formula can have, and how it ends, whatever the inputs are.  Texts of
formulas consist of the inputs, of names and numbers, and of the signs between them, so a character
that is in none of these is not in the text (`Formula.notMem_text`).  The expression that a node
generates ends with a closing bracket, or with a point and one more character
(`Kind.capped_generate`), and never with one of its inputs.
-/

namespace MaterialGraph

/-- A text ends with a closing bracket or a point, or with one of these and one more character,
which is no line feed. -/
def Text.Capped (cs : List Char) : Prop :=
  ∃ front c tail, cs = front ++ c :: tail ∧ (c = ')' ∨ c = '.') ∧ tail.length ≤ 1 ∧ '\n' ∉ tail

/-- What stands before a text does not matter for how it ends. -/
lemma Text.Capped.append_left {cs : List Char} (h : Capped cs) (before : List Char) :
    Capped (before ++ cs) := by
  obtain ⟨front, c, tail, rfl, hc, hlength, hfeed⟩ := h
  exact ⟨before ++ front, c, tail, by rw [List.append_assoc], hc, hlength, hfeed⟩

/-- A text ends as it should if it ends with a closing bracket. -/
lemma Text.capped_append_bracket (front : List Char) : Capped (front ++ [')']) :=
  ⟨front, ')', [], rfl, Or.inl rfl, Nat.zero_le 1, List.not_mem_nil⟩

/-- A text ends as it should if it ends with a point and one more character. -/
lemma Text.capped_append_point (front : List Char) {c : Char} (hc : c ≠ '\n') :
    Capped (front ++ '.' :: [c]) :=
  ⟨front, '.', [c], rfl, Or.inr rfl, Nat.le_refl 1, by simpa [eq_comm] using hc⟩

/-- A line that ends a text ends as the text does: its start does not cut the end off. -/
lemma Text.Capped.of_append {before line : List Char} (h : Capped (before ++ line))
    (hbefore : before = [] ∨ ∃ init, before = init ++ ['\n']) : Capped line := by
  obtain ⟨front, c, tail, hsplit, hc, hlength, hfeed⟩ := h
  rcases List.append_eq_append_iff.mp hsplit with ⟨rest, -, hline⟩ | ⟨rest, hrest, htail⟩
  · exact ⟨rest, c, tail, hline, hc, hlength, hfeed⟩
  · -- what the line lacks of the end would have to end with the line feed
    have hmem : rest ≠ [] → '\n' ∈ c :: tail := by
      intro hne
      have hlast : rest.getLast? = before.getLast? := by
        rw [hrest, List.getLast?_append_of_ne_nil _ hne]
      rcases hbefore with rfl | ⟨init, rfl⟩
      · exact absurd (List.append_eq_nil_iff.mp hrest.symm).2 hne
      · rw [List.getLast?_concat] at hlast
        rw [htail]
        exact List.mem_append_left _ (List.mem_of_getLast? hlast)
    have hnone : '\n' ∉ c :: tail := by
      rcases hc with rfl | rfl <;> simpa using hfeed
    have hnil : rest = [] := by
      by_contra hne
      exact hnone (hmem hne)
    rw [hnil, List.nil_append] at htail
    exact ⟨[], c, tail, htail.symm, hc, hlength, hfeed⟩

/-- A text that ends with a closing bracket or a point, or with one more character, does not end
with two characters or more of which none is a closing bracket or a point. -/
lemma Text.Capped.not_suffix {cs part : List Char} (h : Capped cs) (hlength : 2 ≤ part.length)
    (hbracket : ')' ∉ part) (hpoint : '.' ∉ part) : ¬ part <:+ cs := by
  obtain ⟨front, c, tail, rfl, hc, htail, -⟩ := h
  intro hpart
  have hle : (c :: tail).length ≤ part.length := Nat.le_trans (Nat.succ_le_succ htail) hlength
  have hend : c :: tail <:+ part :=
    List.suffix_of_suffix_length_le (List.suffix_append front (c :: tail)) hpart hle
  have hmem : c ∈ part := hend.subset List.mem_cons_self
  rcases hc with rfl | rfl
  · exact hbracket hmem
  · exact hpoint hmem

/-- An operand has the characters of the text it is made from, and parentheses. -/
lemma Text.notMem_operand {c : Char} {s : String} (hopen : c ≠ '(') (hclose : c ≠ ')')
    (hs : c ∉ s.toList) : c ∉ (Text.operand s).toList := by
  have htrim : c ∉ Text.trim s.toList := by
    intro hmem
    unfold Text.trim at hmem
    rw [List.mem_reverse] at hmem
    have hback := List.dropWhile_sublist _ |>.mem hmem
    rw [List.mem_reverse] at hback
    exact hs (List.dropWhile_sublist _ |>.mem hback)
  unfold Text.operand
  dsimp only
  split
  · exact hs
  · simp [hopen, hclose, htrim]

namespace Formula

/-- The signs that texts of formulas are put together with. -/
def signs : List Char :=
  ['(', ')', ',', ' ', '.', '?', ':', '=', '+', '-', '*', '/']

mutual

/-- Whether a character is in no name and no number of a formula. -/
def avoids (c : Char) : Formula → Bool
  | input _ | operand _ => true
  | number digits => c ∉ digits.toList
  | vector type components => c ∉ type.toList && components.all fun digits => c ∉ digits.toList
  | call function arguments => c ∉ function.toList && allAvoid c arguments
  | member base selector => avoids c base && c ∉ selector.toList
  | infixed _ left right => avoids c left && avoids c right
  | conditional condition yes no => avoids c condition && avoids c yes && avoids c no

/-- Whether a character is in no name and no number of several formulas. -/
def allAvoid (c : Char) : List Formula → Bool
  | [] => true
  | f :: fs => avoids c f && allAvoid c fs

end

/-- Whether the text of a formula that can stand anywhere ends with a sign of its own: it is put in
brackets, ends with them, or ends with a point and one more character. -/
def isCapped : Formula → Bool
  | operand _ => false
  | number digits => match digits.toList.reverse with
    | c :: '.' :: _ => c ≠ '\n'
    | _ => false
  | member _ selector => match selector.toList with
    | [c] => c ≠ '\n'
    | _ => false
  | _ => true

section Text

variable {c : Char} {inputs : String → String}

/-- Separators have no other characters than the texts between them. -/
lemma notMem_separated (hcomma : c ≠ ',') {texts : List String}
    (h : ∀ s ∈ texts, c ∉ s.toList) : c ∉ (Text.separated "," texts).toList := by
  induction texts with
  | nil => simp [Text.separated]
  | cons s texts ih =>
    have hs : c ∉ s.toList := h s List.mem_cons_self
    have hrest := ih fun t ht => h t (List.mem_cons_of_mem _ ht)
    cases texts with
    | nil => exact hs
    | cons t texts => simp [Text.separated, hs, hcomma, hrest]

/-- Parentheses are the only characters that a place can add. -/
lemma notMem_bracketed (hc : c ∉ signs) (place : Nat) (f : Formula) {s : String}
    (hs : c ∉ s.toList) : c ∉ (bracketed place f s).toList := by
  have hparens : c ≠ '(' ∧ c ≠ ')' := by
    constructor <;> rintro rfl <;> exact hc (by decide)
  unfold bracketed
  split
  · simp [hparens, hs]
  · exact hs

/-- An operator is written with signs. -/
lemma notMem_symbol (hc : c ∉ signs) (operator : Operator) : c ∉ operator.symbol.toList := by
  intro hmem
  have hsigns : (operator.symbol.toList.all fun x => x ∈ signs) = true := by
    cases operator <;> decide
  exact hc (of_decide_eq_true (List.all_eq_true.mp hsigns c hmem))

mutual

/-- A character that is no sign, and in no input, name or number, is not in the text. -/
lemma notMem_text (hc : c ∉ signs) (hinputs : ∀ socket, c ∉ (inputs socket).toList) :
    ∀ f : Formula, avoids c f = true → c ∉ (text inputs f).toList
  | input socket, _ => by
    rw [text]
    exact hinputs socket
  | operand socket, _ => by
    rw [text]
    exact Text.notMem_operand (fun h => hc (h ▸ by decide)) (fun h => hc (h ▸ by decide))
      (hinputs socket)
  | number digits, hf => by
    rw [text]
    simpa [avoids] using hf
  | vector type components, hf => by
    simp only [avoids, Bool.and_eq_true, decide_eq_true_eq, List.all_eq_true] at hf
    have hsigns : c ≠ '(' ∧ c ≠ ')' ∧ c ≠ ',' := by
      refine ⟨?_, ?_, ?_⟩ <;> rintro rfl <;> exact hc (by decide)
    rw [text]
    simp [hf.1, hsigns, notMem_separated hsigns.2.2 hf.2]
  | call function arguments, hf => by
    simp only [avoids, Bool.and_eq_true, decide_eq_true_eq] at hf
    have hsigns : c ≠ '(' ∧ c ≠ ')' := by
      constructor <;> rintro rfl <;> exact hc (by decide)
    rw [text]
    simp [hf.1, hsigns, notMem_argumentText hc hinputs arguments hf.2]
  | member base selector, hf => by
    simp only [avoids, Bool.and_eq_true, decide_eq_true_eq] at hf
    have hpoint : c ≠ '.' := by
      rintro rfl
      exact hc (by decide)
    have hbase := notMem_bracketed hc tight base (notMem_text hc hinputs base hf.1)
    rw [text]
    simp [hbase, hpoint, hf.2]
  | infixed operator left right, hf => by
    simp only [avoids, Bool.and_eq_true] at hf
    have hblank : c ≠ ' ' := by
      rintro rfl
      exact hc (by decide)
    have hleft := notMem_bracketed hc operator.strength left (notMem_text hc hinputs left hf.1)
    have hright :=
      notMem_bracketed hc (operator.strength + 1) right (notMem_text hc hinputs right hf.2)
    rw [text]
    simp [hleft, hright, hblank, notMem_symbol hc operator]
  | conditional condition yes no, hf => by
    simp only [avoids, Bool.and_eq_true] at hf
    have hsigns : c ≠ ' ' ∧ c ≠ '?' ∧ c ≠ ':' := by
      refine ⟨?_, ?_, ?_⟩ <;> rintro rfl <;> exact hc (by decide)
    have hcondition := notMem_bracketed hc 1 condition (notMem_text hc hinputs condition hf.1.1)
    rw [text]
    simp [hcondition, hsigns, notMem_text hc hinputs yes hf.1.2, notMem_text hc hinputs no hf.2]

/-- A character that is in no argument and no sign is not in the arguments one after the other. -/
lemma notMem_argumentText (hc : c ∉ signs) (hinputs : ∀ socket, c ∉ (inputs socket).toList) :
    ∀ fs : List Formula, allAvoid c fs = true → c ∉ (argumentText inputs fs).toList
  | [], _ => by simp [argumentText]
  | [f], hf => by
    simp only [allAvoid, Bool.and_true] at hf
    rw [argumentText]
    exact notMem_text hc hinputs f hf
  | f :: g :: fs, hf => by
    rw [allAvoid, Bool.and_eq_true] at hf
    have hsigns : c ≠ ',' ∧ c ≠ ' ' := by
      constructor <;> rintro rfl <;> exact hc (by decide)
    rw [argumentText]
    · simp [notMem_text hc hinputs f hf.1, hsigns,
        notMem_argumentText hc hinputs (g :: fs) hf.2]
    · simp

end

/-- A formula that is put in brackets or ends with a sign of its own keeps that end. -/
lemma capped_spliced {f : Formula} (hf : f.isCapped = true) :
    Text.Capped (f.spliced inputs).toList := by
  have hbrackets : ∀ s : String, Text.Capped ("(" ++ s ++ ")").toList := by
    intro s
    rw [String.toList_append]
    exact Text.capped_append_bracket _
  unfold spliced bracketed
  split
  · exact hbrackets _
  rename_i hstrength
  cases f with
  | input | conditional => exact absurd (Nat.succ_pos 3) hstrength
  | infixed operator left right =>
    have hweak : operator.strength < tight := by cases operator <;> decide
    exact absurd hweak hstrength
  | operand => simp [isCapped] at hf
  | vector | call =>
    rw [text, String.toList_append]
    exact Text.capped_append_bracket _
  | number digits =>
    simp only [isCapped] at hf
    split at hf
    · rename_i last front hdigits
      have htext : digits.toList = front.reverse ++ '.' :: [last] := by
        rw [← List.reverse_reverse digits.toList, hdigits]
        simp
      rw [text, htext]
      exact Text.capped_append_point _ (of_decide_eq_true hf)
    · cases hf
  | member base selector =>
    simp only [isCapped] at hf
    split at hf
    · rename_i last hselector
      rw [text, String.toList_append, String.toList_append, hselector, List.append_assoc]
      exact Text.capped_append_point _ (of_decide_eq_true hf)
    · cases hf

end Text

end Formula

namespace Kind

/-- No name and no number of a formula has a semicolon. -/
lemma avoids_formula (k : Kind) : k.formula.avoids ';' = true := by
  cases k with
  | gamma m | lightFalloff m | separateColor m | math m | vectorMath m | mix m | clamp m =>
    cases m <;> decide
  | _ => decide

/-- No formula ends with one of its inputs. -/
lemma isCapped_formula (k : Kind) : k.formula.isCapped = true := by
  cases k with
  | gamma m | lightFalloff m | separateColor m | math m | vectorMath m | mix m | clamp m =>
    cases m <;> decide
  | _ => decide

/-- A socket gets one of the inputs, or no text. -/
lemma inputOf_mem_or_eq (k : Kind) (inputs : List String) (socket : String) :
    k.inputOf inputs socket ∈ inputs ∨ k.inputOf inputs socket = "" := by
  unfold inputOf
  cases hlookup : ((k.sockets.map SocketSpec.name).zip inputs).lookup socket with
  | none => exact Or.inr rfl
  | some input =>
    obtain ⟨before, after, hzip, _⟩ := List.lookup_eq_some_iff.mp hlookup
    have hmem : (socket, input) ∈ (k.sockets.map SocketSpec.name).zip inputs := by
      rw [hzip]
      simp
    exact Or.inl (List.of_mem_zip hmem).2

variable {k : Kind} {inputs : List String} {code : String}

/-- The expression of a node has a semicolon only if one of its inputs has. -/
lemma semicolon_notMem_generate (h : k.generate inputs = .ok code)
    (hinputs : ∀ input ∈ inputs, ';' ∉ input.toList) : ';' ∉ code.toList := by
  have hsockets : ∀ socket, ';' ∉ (k.inputOf inputs socket).toList := by
    intro socket
    rcases k.inputOf_mem_or_eq inputs socket with hmem | hempty
    · exact hinputs _ hmem
    · rw [hempty]
      exact List.not_mem_nil
  unfold generate at h
  split at h
  · rw [← Except.ok.inj h]
    have hsigns : ';' ∉ Formula.signs := by decide
    exact Formula.notMem_bracketed hsigns _ _
      (Formula.notMem_text hsigns hsockets k.formula k.avoids_formula)
  · cases h

/-- The expression of a node does not end with one of its inputs. -/
lemma capped_generate (h : k.generate inputs = .ok code) : Text.Capped code.toList := by
  unfold generate at h
  split at h
  · rw [← Except.ok.inj h]
    exact Formula.capped_spliced k.isCapped_formula
  · cases h

end Kind

end MaterialGraph
