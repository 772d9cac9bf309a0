import Mathlib
import MaterialGraph.Proofs.Expression.Token
import MaterialGraph.Proofs.Formula.Characters

/-!
# Brackets in the text of a formula

A text is balanced if its brackets can be paired, whatever their shapes (`Text.Balanced`).  What
stands between the brackets of a balanced text does not matter to a scan that counts the open ones
(`Balanced.atomicFrom_append`), so a balanced text in parentheses can stand next to an operator.
More generally, words and balanced texts in parentheses, one behind the other, are left as they are
where an operand is wanted (`Solid.operand_eq`).

The text of a formula is balanced if its inputs are (`Formula.balanced_text`), and the expression
that a node generates is made of words and parentheses (`Kind.solid_generate`).
-/

namespace MaterialGraph

namespace Text

/-! ### Balanced texts -/

/-- An opening bracket. -/
def opens (c : Char) : Bool :=
  c == '(' || c == '['

/-- A closing bracket. -/
def closes (c : Char) : Bool :=
  c == ')' || c == ']'

/-- At no place have more brackets been closed than opened, and at the end all are closed. -/
structure Balanced (cs : List Char) : Prop where
  front {front : List Char} : front <+: cs → front.countP closes ≤ front.countP opens
  total : cs.countP opens = cs.countP closes

instance (cs : List Char) : Decidable (Balanced cs) :=
  decidable_of_iff
    ((∀ front ∈ cs.inits, front.countP closes ≤ front.countP opens) ∧
      cs.countP opens = cs.countP closes)
    ⟨fun h => ⟨fun hfront => h.1 _ (List.mem_inits _ _ |>.mpr hfront), h.2⟩,
      fun h => ⟨fun _ hfront => h.front (List.mem_inits _ _ |>.mp hfront), h.total⟩⟩

/-- The four brackets. -/
def brackets : List Char :=
  ['(', '[', ')', ']']

/-- A text without brackets. -/
def Plain (cs : List Char) : Prop :=
  ∀ c ∈ brackets, c ∉ cs

section Balanced

variable {cs ds : List Char}

lemma Plain.countP_opens (h : Plain cs) : cs.countP opens = 0 := by
  rw [List.countP_eq_zero]
  intro c hc hopens
  refine h c ?_ hc
  simp only [opens, Bool.or_eq_true, beq_iff_eq] at hopens
  rcases hopens with rfl | rfl <;> simp [brackets]

lemma Plain.countP_closes (h : Plain cs) : cs.countP closes = 0 := by
  rw [List.countP_eq_zero]
  intro c hc hcloses
  refine h c ?_ hc
  simp only [closes, Bool.or_eq_true, beq_iff_eq] at hcloses
  rcases hcloses with rfl | rfl <;> simp [brackets]

/-- A text that has only characters of a plain one is plain. -/
lemma Plain.of_subset (h : Plain cs) (hds : ds ⊆ cs) : Plain ds :=
  fun c hc hmem => h c hc (hds hmem)

/-- A text without brackets is balanced. -/
lemma Plain.balanced (h : Plain cs) : Balanced cs where
  front hfront := by
    rw [(h.of_subset hfront.subset).countP_closes]
    exact Nat.zero_le _
  total := by rw [h.countP_opens, h.countP_closes]

lemma balanced_empty : Balanced "".toList :=
  Plain.balanced (by simp [Plain])

/-- Balanced texts one behind the other. -/
lemma Balanced.append (hcs : Balanced cs) (hds : Balanced ds) : Balanced (cs ++ ds) where
  front hfront := by
    obtain hfront' | ⟨front, rfl⟩ :=
      List.prefix_or_prefix_of_prefix hfront (List.prefix_append cs ds)
    · exact hcs.front hfront'
    · have hds' := hds.front ((List.prefix_append_right_inj cs).mp hfront)
      have htotal := hcs.total
      rw [List.countP_append, List.countP_append]
      omega
  total := by rw [List.countP_append, List.countP_append, hcs.total, hds.total]

/-- A balanced text in parentheses. -/
lemma Balanced.group (h : Balanced cs) : Balanced ('(' :: (cs ++ [')'])) where
  front hfront := by
    obtain rfl | ⟨inner, rfl, hinner⟩ := List.prefix_cons_iff.mp hfront
    · exact le_rfl
    obtain rfl | hinner := List.prefix_concat_iff.mp hinner
    · simp [opens, closes, ← h.total]
    · have hopen : ('(' :: inner).countP opens = inner.countP opens + 1 :=
        List.countP_cons_of_pos rfl
      have hclose : ('(' :: inner).countP closes = inner.countP closes :=
        List.countP_cons_of_neg (by decide)
      have hle := h.front hinner
      omega
  total := by simp [opens, closes, h.total]

/-- What has no brackets can be taken off both ends. -/
lemma Balanced.of_append {before after : List Char} (h : Balanced (before ++ cs ++ after))
    (hbefore : Plain before) (hafter : Plain after) : Balanced cs where
  front {front} hfront := by
    have hle := h.front ((List.prefix_append_right_inj before).mpr hfront |>.trans
      (List.prefix_append _ after))
    rwa [List.countP_append, List.countP_append, hbefore.countP_closes, hbefore.countP_opens,
      Nat.zero_add, Nat.zero_add] at hle
  total := by
    have htotal := h.total
    simp only [List.countP_append, hbefore.countP_closes, hbefore.countP_opens,
      hafter.countP_closes, hafter.countP_opens, Nat.zero_add, Nat.add_zero] at htotal
    exact htotal

/-- Characters of a class without brackets make a text without brackets. -/
lemma plain_of_forall {p : Char → Bool} (hp : (brackets.all fun c => !p c) = true)
    (h : ∀ c ∈ cs, p c = true) : Plain cs := by
  intro c hc hmem
  have hnot := List.all_eq_true.mp hp c hc
  rw [h c hmem] at hnot
  cases hnot

lemma plain_of_isBlank (h : ∀ c ∈ cs, isBlank c = true) : Plain cs :=
  plain_of_forall (by decide) h

lemma plain_of_isWordChar (h : ∀ c ∈ cs, isWordChar c = true) : Plain cs :=
  plain_of_forall (by decide) h

/-- A character of a word is not blank. -/
lemma isBlank_of_isWordChar {c : Char} (h : isWordChar c = true) : isBlank c = false := by
  rw [← Bool.not_eq_true]
  intro hblank
  rw [isWordChar_of_isBlank hblank] at h
  cases h

/-- White space is taken off both ends of a text. -/
lemma exists_trim (cs : List Char) :
    ∃ before after, cs = before ++ trim cs ++ after ∧ Plain before ∧ Plain after := by
  refine ⟨cs.takeWhile isBlank, ((cs.dropWhile isBlank).reverse.takeWhile isBlank).reverse, ?_,
    plain_of_isBlank fun c hc => List.mem_takeWhile_imp hc, plain_of_isBlank fun c hc => ?_⟩
  · unfold trim
    rw [List.append_assoc, ← List.reverse_append, List.takeWhile_append_dropWhile,
      List.reverse_reverse, List.takeWhile_append_dropWhile]
  · exact List.mem_takeWhile_imp (List.mem_reverse.mp hc)

/-- A text without white space at its ends stays as it is. -/
lemma trim_eq_self (hhead : ∀ c ∈ cs.head?, isBlank c = false)
    (hlast : ∀ c ∈ cs.getLast?, isBlank c = false) : trim cs = cs := by
  have hstop : ∀ ds : List Char, (∀ c ∈ ds.head?, isBlank c = false) →
      ds.dropWhile isBlank = ds := by
    intro ds hds
    cases ds with
    | nil => rfl
    | cons c ds => exact List.dropWhile_cons_of_neg (by simp [hds c rfl])
  unfold trim
  rw [hstop cs hhead, hstop cs.reverse (by rwa [List.head?_reverse]), List.reverse_reverse]

/-- Taking white space away at the ends keeps a text balanced, since white space has no brackets. -/
lemma Balanced.trim (h : Balanced cs) : Balanced (trim cs) := by
  obtain ⟨before, after, hcs, hbefore, hafter⟩ := exists_trim cs
  rw [hcs] at h
  exact h.of_append hbefore hafter

/-! ### The scan for operands -/

variable {c : Char} {d : ℕ}

/-- No bracket both opens and closes. -/
lemma not_opens_and_closes : ¬ (opens c = true ∧ closes c = true) := by
  rintro ⟨hopens, hcloses⟩
  simp only [opens, Bool.or_eq_true, beq_iff_eq] at hopens
  rcases hopens with rfl | rfl <;> exact absurd hcloses (by decide)

/-- A bracket that opens goes one deeper. -/
lemma atomicFrom_cons_of_opens (h : opens c = true) :
    atomicFrom d (c :: cs) = atomicFrom (d + 1) cs :=
  if_pos h

/-- A bracket that closes goes one up, as far as there is something open. -/
lemma atomicFrom_cons_of_closes (h : closes c = true) :
    atomicFrom d (c :: cs) = atomicFrom (d - 1) cs := by
  have hopens : ¬ opens c = true := fun hopens => not_opens_and_closes ⟨hopens, h⟩
  exact (if_neg hopens).trans (if_pos h)

/-- Any other character is allowed inside brackets, and outside of them if it belongs to a word. -/
lemma atomicFrom_cons (hopens : ¬ opens c = true) (hcloses : ¬ closes c = true) :
    atomicFrom d (c :: cs) = ((d != 0 || isWordChar c) && atomicFrom d cs) :=
  (if_neg hopens).trans (if_neg hcloses)

/-- As long as a bracket stays open, the scan only counts brackets. -/
lemma atomicFrom_append (h : ∀ front, front <+: cs → front.countP closes < d + front.countP opens)
    (rest : List Char) :
    atomicFrom d (cs ++ rest) = atomicFrom (d + cs.countP opens - cs.countP closes) rest := by
  induction cs generalizing d with
  | nil => rfl
  | cons c cs ih =>
    have hpos : 0 < d := h [] List.nil_prefix
    have hcons : ∀ front, front <+: cs →
        (c :: front).countP closes < d + (c :: front).countP opens := by
      intro front hfront
      exact h (c :: front) ((List.prefix_cons_inj c).mpr hfront)
    rw [List.cons_append]
    by_cases hopens : opens c = true
    · have hcloses : ¬ closes c = true := fun hcloses => not_opens_and_closes ⟨hopens, hcloses⟩
      simp only [List.countP_cons_of_pos hopens, List.countP_cons_of_neg hcloses] at hcons ⊢
      rw [atomicFrom_cons_of_opens hopens, ih]
      · congr 1
        omega
      · intro front hfront
        have hlt := hcons front hfront
        omega
    by_cases hcloses : closes c = true
    · simp only [List.countP_cons_of_neg hopens, List.countP_cons_of_pos hcloses] at hcons ⊢
      rw [atomicFrom_cons_of_closes hcloses, ih]
      · congr 1
        omega
      · intro front hfront
        have hlt := hcons front hfront
        omega
    · have hdeep : (d != 0 || isWordChar c) = true := by simp [hpos.ne']
      simp only [List.countP_cons_of_neg hopens, List.countP_cons_of_neg hcloses] at hcons ⊢
      rw [atomicFrom_cons hopens hcloses, hdeep, Bool.true_and]
      exact ih hcons

/-- A word makes no difference to the scan. -/
lemma atomicFrom_append_of_isWordChar (h : ∀ c ∈ cs, isWordChar c = true) (rest : List Char) :
    atomicFrom d (cs ++ rest) = atomicFrom d rest := by
  induction cs with
  | nil => rfl
  | cons c cs ih =>
    obtain ⟨hc, hcs⟩ := List.forall_mem_cons.mp h
    have hplain : Plain [c] := plain_of_isWordChar (List.forall_mem_singleton.mpr hc)
    have hopens : ¬ opens c = true := by simpa using hplain.countP_opens
    have hcloses : ¬ closes c = true := by simpa using hplain.countP_closes
    rw [List.cons_append, atomicFrom_cons hopens hcloses, hc, Bool.or_true, Bool.true_and]
    exact ih hcs

/-- Inside brackets a balanced text makes no difference to the scan. -/
lemma Balanced.atomicFrom_append (h : Balanced cs) (rest : List Char) :
    atomicFrom (d + 1) (cs ++ rest) = atomicFrom (d + 1) rest := by
  rw [Text.atomicFrom_append, h.total, Nat.add_sub_cancel]
  intro front hfront
  have hle := h.front hfront
  omega

end Balanced

/-! ### Texts that hold together -/

/-- Words and balanced texts in parentheses, one behind the other. -/
inductive Solid : List Char → Prop where
  | word {cs : List Char} (hne : cs ≠ []) (h : ∀ c ∈ cs, isWordChar c = true) : Solid cs
  | group {cs : List Char} (h : Balanced cs) : Solid ('(' :: (cs ++ [')']))
  | append {cs ds : List Char} (hcs : Solid cs) (hds : Solid ds) : Solid (cs ++ ds)

namespace Solid

variable {cs : List Char}

/-- A solid text is balanced. -/
lemma balanced (h : Solid cs) : Balanced cs := by
  induction h with
  | word _ h => exact (plain_of_isWordChar h).balanced
  | group h => exact h.group
  | append _ _ hcs hds => exact hcs.append hds

/-- A solid text is not empty. -/
lemma ne_nil (h : Solid cs) : cs ≠ [] := by
  induction h with
  | word hne => exact hne
  | group => exact List.cons_ne_nil _ _
  | append _ _ hcs => exact List.append_ne_nil_of_left_ne_nil hcs _

/-- The scan finds nothing that would need parentheses. -/
lemma atomicFrom_append (h : Solid cs) (rest : List Char) :
    atomicFrom 0 (cs ++ rest) = atomicFrom 0 rest := by
  induction h generalizing rest with
  | word _ h => exact atomicFrom_append_of_isWordChar h rest
  | @group cs h =>
    have hopen : atomicFrom 0 ('(' :: (cs ++ [')']) ++ rest) =
        atomicFrom 1 (cs ++ ')' :: rest) := by
      rw [List.cons_append, atomicFrom_cons_of_opens rfl, List.append_assoc]
      rfl
    rw [hopen, h.atomicFrom_append, atomicFrom_cons_of_closes rfl]
  | append _ _ hcs hds => rw [List.append_assoc, hcs, hds]

/-- No white space stands at the ends. -/
lemma isBlank_head (h : Solid cs) : ∀ c ∈ cs.head?, isBlank c = false := by
  induction h with
  | word _ h => exact fun c hc => isBlank_of_isWordChar (h c (List.mem_of_mem_head? hc))
  | group =>
    intro c hc
    obtain rfl := Option.some.inj hc
    decide
  | append hcs _ ih => rwa [List.head?_append_of_ne_nil _ hcs.ne_nil]

/-- A solid text does not end with white space. -/
lemma isBlank_getLast (h : Solid cs) : ∀ c ∈ cs.getLast?, isBlank c = false := by
  induction h with
  | word _ h => exact fun c hc => isBlank_of_isWordChar (h c (List.mem_of_getLast? hc))
  | group =>
    intro c hc
    rw [← List.cons_append, List.getLast?_concat] at hc
    obtain rfl := Option.some.inj hc
    decide
  | append _ hds _ ih => rwa [List.getLast?_append_of_ne_nil _ hds.ne_nil]

/-- A text that holds together is fit to stand next to an operator. -/
lemma operand_eq {s : String} (h : Solid s.toList) : operand s = s := by
  have hatomic : isAtomic (trim s.toList) = true := by
    have hscan := h.atomicFrom_append []
    rw [List.append_nil] at hscan
    rw [trim_eq_self h.isBlank_head h.isBlank_getLast, isAtomic, hscan]
    simp [h.ne_nil, atomicFrom]
  exact if_pos hatomic

end Solid

/-- An operand is balanced if the text it is made from is. -/
lemma Balanced.operand {s : String} (h : Balanced s.toList) : Balanced (operand s).toList := by
  unfold Text.operand
  dsimp only
  split_ifs
  · exact h
  · have hlist : ("(" ++ String.ofList (Text.trim s.toList) ++ ")").toList =
        '(' :: (Text.trim s.toList ++ [')']) := by simp
    rw [hlist]
    exact h.trim.group

/-- An operand needs no further parentheses. -/
lemma operand_operand {s : String} (h : Balanced s.toList) : operand (operand s) = operand s := by
  by_cases hatomic : isAtomic (trim s.toList) = true
  · have hsame : operand s = s := if_pos hatomic
    rw [hsame, hsame]
  · have hgroup : operand s = "(" ++ String.ofList (trim s.toList) ++ ")" := if_neg hatomic
    refine Solid.operand_eq ?_
    rw [hgroup]
    simpa using Solid.group h.trim

end Text

open Text

/-! ### Formulas -/

namespace Formula

/-- No name and no number of a formula has a bracket. -/
def Unbracketed (f : Formula) : Prop :=
  ∀ c ∈ brackets, f.avoids c = true

section Unbracketed

variable {f g h : Formula} {s : String}

lemma unbracketed_member : (member f s).Unbracketed ↔ f.Unbracketed ∧ Plain s.toList := by
  simp only [Unbracketed, avoids, Plain, Bool.and_eq_true, decide_eq_true_eq, forall₂_and]

lemma unbracketed_infixed {operator : Operator} :
    (infixed operator f g).Unbracketed ↔ f.Unbracketed ∧ g.Unbracketed := by
  simp only [Unbracketed, avoids, Bool.and_eq_true, forall₂_and]

lemma unbracketed_conditional :
    (conditional f g h).Unbracketed ↔ (f.Unbracketed ∧ g.Unbracketed) ∧ h.Unbracketed := by
  simp only [Unbracketed, avoids, Bool.and_eq_true, forall₂_and]

/-- A vector has no brackets of its own if its name and the digits of its components have none. -/
lemma unbracketed_vector {components : List String} :
    (vector s components).Unbracketed ↔
      Plain s.toList ∧ ∀ c ∈ brackets, ∀ digits ∈ components, c ∉ digits.toList := by
  simp only [Unbracketed, avoids, Plain, Bool.and_eq_true, decide_eq_true_eq, List.all_eq_true,
    forall₂_and]

/-- All formulas of a list avoid a character just if each of them does. -/
lemma allAvoid_iff {c : Char} {fs : List Formula} :
    allAvoid c fs = true ↔ ∀ f ∈ fs, f.avoids c = true := by
  induction fs with
  | nil => simp [allAvoid]
  | cons f fs ih => rw [allAvoid, Bool.and_eq_true, ih, List.forall_mem_cons]

/-- A call has no brackets of its own if the name of the function and its arguments have none. -/
lemma unbracketed_call {arguments : List Formula} :
    (call s arguments).Unbracketed ↔ Plain s.toList ∧ ∀ f ∈ arguments, f.Unbracketed := by
  simp only [Unbracketed, avoids, Plain, Bool.and_eq_true, decide_eq_true_eq, allAvoid_iff,
    forall₂_and]
  refine and_congr_right fun _ => ?_
  constructor
  · exact fun hall f hf c hc => hall c hc f hf
  · exact fun hall c hc f hf => hall f hf c hc

end Unbracketed

/-- A text of word characters only. -/
def isWord (s : String) : Bool :=
  !s.toList.isEmpty && s.toList.all isWordChar

/-- Whether the text of a formula that can stand anywhere consists of words and parentheses: it is
put in parentheses, or it starts with a word or with parentheses and goes on with them. -/
def isSolid : Formula → Bool
  | operand _ => false
  | number digits => isWord digits
  | vector type _ => isWord type
  | call function _ => isWord function
  | member base selector => base.strength < tight && isWord selector
  | _ => true

/-- A word is solid. -/
lemma solid_of_isWord {s : String} (h : isWord s = true) : Solid s.toList := by
  simp only [isWord, Bool.and_eq_true, Bool.not_eq_true', List.isEmpty_eq_false_iff,
    List.all_eq_true] at h
  exact Solid.word h.1 h.2

section Text

variable {inputs : String → String}

lemma toList_parenthesised (before s : String) :
    (before ++ "(" ++ s ++ ")").toList = before.toList ++ '(' :: (s.toList ++ [')']) := by
  simp

/-- A place adds nothing but parentheses. -/
lemma balanced_bracketed (place : ℕ) (f : Formula) {s : String} (h : Balanced s.toList) :
    Balanced (bracketed place f s).toList := by
  unfold bracketed
  split_ifs
  · simpa using h.group
  · exact h

/-- The numbers between the parentheses of a vector. -/
lemma plain_separated {components : List String}
    (h : ∀ c ∈ brackets, ∀ digits ∈ components, c ∉ digits.toList) :
    Plain (Text.separated "," components).toList := by
  intro c hc
  have hcomma : c ≠ ',' := by
    rintro rfl
    exact absurd hc (by decide)
  exact notMem_separated hcomma (h c hc)

mutual

/-- The text of a formula is balanced if the inputs are. -/
lemma balanced_text (hinputs : ∀ socket, Balanced (inputs socket).toList) :
    ∀ f : Formula, f.Unbracketed → Balanced (text inputs f).toList
  | input socket, _ => by
    rw [text]
    exact hinputs socket
  | operand socket, _ => by
    rw [text]
    exact (hinputs socket).operand
  | number digits, hf => by
    rw [text]
    refine Plain.balanced fun c hc => ?_
    simpa [avoids] using hf c hc
  | vector type components, hf => by
    obtain ⟨htype, hcomponents⟩ := unbracketed_vector.mp hf
    rw [text, toList_parenthesised]
    exact htype.balanced.append (plain_separated hcomponents).balanced.group
  | call function arguments, hf => by
    obtain ⟨hfunction, harguments⟩ := unbracketed_call.mp hf
    rw [text, toList_parenthesised]
    exact hfunction.balanced.append (balanced_argumentText hinputs arguments harguments).group
  | member base selector, hf => by
    obtain ⟨hbase, hselector⟩ := unbracketed_member.mp hf
    have hpoint : Plain ".".toList := by simp [Plain, brackets]
    rw [text, String.toList_append, String.toList_append]
    exact ((balanced_bracketed tight base (balanced_text hinputs base hbase)).append
      hpoint.balanced).append hselector.balanced
  | infixed operator left right, hf => by
    obtain ⟨hleft, hright⟩ := unbracketed_infixed.mp hf
    have hsign : Plain (" " ++ operator.symbol ++ " ").toList := by
      cases operator <;> simp [Plain, brackets, Operator.symbol]
    have hleft' := balanced_bracketed operator.strength left (balanced_text hinputs left hleft)
    have hright' :=
      balanced_bracketed (operator.strength + 1) right (balanced_text hinputs right hright)
    rw [text]
    simpa using (hleft'.append hsign.balanced).append hright'
  | conditional condition yes no, hf => by
    obtain ⟨⟨hcondition, hyes⟩, hno⟩ := unbracketed_conditional.mp hf
    have hsigns : Plain " ? ".toList ∧ Plain " : ".toList := by simp [Plain, brackets]
    have hcondition' := balanced_bracketed 1 condition (balanced_text hinputs condition hcondition)
    rw [text]
    simpa using (((hcondition'.append hsigns.1.balanced).append
      (balanced_text hinputs yes hyes)).append hsigns.2.balanced).append
      (balanced_text hinputs no hno)

/-- Arguments one after the other are balanced, since the commas between them are no brackets. -/
lemma balanced_argumentText (hinputs : ∀ socket, Balanced (inputs socket).toList) :
    ∀ fs : List Formula, (∀ f ∈ fs, f.Unbracketed) → Balanced (argumentText inputs fs).toList
  | [], _ => by
    rw [argumentText]
    exact balanced_empty
  | [f], hf => by
    rw [argumentText]
    exact balanced_text hinputs f (List.forall_mem_singleton.mp hf)
  | f :: g :: fs, hf => by
    obtain ⟨hfirst, hrest⟩ := List.forall_mem_cons.mp hf
    have hcomma : Plain ", ".toList := by simp [Plain, brackets]
    rw [argumentText, String.toList_append, String.toList_append]
    · exact ((balanced_text hinputs f hfirst).append hcomma.balanced).append
        (balanced_argumentText hinputs (g :: fs) hrest)
    · simp

end

/-- The text of a formula that can stand anywhere. -/
lemma solid_spliced (hinputs : ∀ socket, Balanced (inputs socket).toList) {f : Formula}
    (hf : f.Unbracketed) (hsolid : f.isSolid = true) : Solid (f.spliced inputs).toList := by
  have hgroup : ∀ base : Formula, base.Unbracketed →
      Solid ("(" ++ text inputs base ++ ")").toList := by
    intro base hbase
    simpa using Solid.group (balanced_text hinputs base hbase)
  unfold spliced bracketed
  split_ifs with hstrength
  · exact hgroup f hf
  cases f with
  | input | conditional => exact absurd (Nat.succ_pos 3) hstrength
  | infixed operator left right =>
    have hweak : operator.strength < tight := by cases operator <;> decide
    exact absurd hweak hstrength
  | operand => cases hsolid
  | number digits =>
    rw [text]
    exact solid_of_isWord hsolid
  | vector type components =>
    obtain ⟨-, hcomponents⟩ := unbracketed_vector.mp hf
    rw [text, toList_parenthesised]
    exact (solid_of_isWord hsolid).append (Solid.group (plain_separated hcomponents).balanced)
  | call function arguments =>
    obtain ⟨-, harguments⟩ := unbracketed_call.mp hf
    rw [text, toList_parenthesised]
    exact (solid_of_isWord hsolid).append
      (Solid.group (balanced_argumentText hinputs arguments harguments))
  | member base selector =>
    obtain ⟨hbase, -⟩ := unbracketed_member.mp hf
    simp only [isSolid, Bool.and_eq_true, decide_eq_true_eq] at hsolid
    have hpoint : Solid ".".toList := solid_of_isWord (by decide)
    rw [text, bracketed, if_pos hsolid.1, String.toList_append, String.toList_append]
    exact ((hgroup base hbase).append hpoint).append (solid_of_isWord hsolid.2)

end Text

end Formula

/-! ### Kinds -/

namespace Kind

/-- No name and no number of the formula of a kind has a bracket. -/
lemma unbracketed_formula (k : Kind) : k.formula.Unbracketed := by
  have hall : (brackets.all fun c => k.formula.avoids c) = true := by
    cases k with
    | gamma m | lightFalloff m | separateColor m | math m | vectorMath m | mix m | clamp m =>
      cases m <;> decide
    | _ => decide
  exact fun c hc => List.all_eq_true.mp hall c hc

/-- No formula of a kind is one of the inputs alone. -/
lemma isSolid_formula (k : Kind) : k.formula.isSolid = true := by
  cases k with
  | gamma m | lightFalloff m | separateColor m | math m | vectorMath m | mix m | clamp m =>
    cases m <;> decide
  | _ => decide

/-- The expression of a node consists of words and parentheses if its inputs are balanced. -/
lemma solid_generate {k : Kind} {inputs : List String} {code : String}
    (h : k.generate inputs = .ok code) (hinputs : ∀ input ∈ inputs, Balanced input.toList) :
    Solid code.toList := by
  have hsockets : ∀ socket, Balanced (k.inputOf inputs socket).toList := by
    intro socket
    rcases k.inputOf_mem_or_eq inputs socket with hmem | hempty
    · exact hinputs _ hmem
    · rw [hempty]
      exact balanced_empty
  unfold generate at h
  split_ifs at h
  rw [← Except.ok.inj h]
  exact Formula.solid_spliced hsockets k.unbracketed_formula k.isSolid_formula

end Kind

end MaterialGraph
