import MaterialGraph.Proofs.Expression.Operand
import MaterialGraph.Proofs.Expression.Reader

/-!
# The text of a formula

A formula with trees for its sockets is itself a tree (`Formula.tree`).  When the inputs are texts
of those trees, the text of the formula is a text of that tree, with the inputs as whole parts of
it (`Formula.reads_text`).  Two things can go wrong, and the hypotheses keep them out: a name or a
number in the formula may be none (`Formula.isWritable`), and a point may be taken for part of a
number in front of it (`Formula.selected`).
-/

namespace MaterialGraph

open Expression

namespace Formula

mutual

/-- The tree of a formula, given the trees of the inputs by socket name. -/
def tree (inputs : String → Expression) : Formula → Expression
  | input socket | operand socket => inputs socket
  | number digits => .number digits
  | vector type components => .call type (components.map .number)
  | call function arguments => .call function (trees inputs arguments)
  | member base selector => .member (tree inputs base) selector
  | infixed operator left right => .infixed operator (tree inputs left) (tree inputs right)
  | conditional condition yes no =>
    .conditional (tree inputs condition) (tree inputs yes) (tree inputs no)

/-- The trees of formulas. -/
def trees (inputs : String → Expression) : List Formula → List Expression
  | [] => []
  | f :: fs => tree inputs f :: trees inputs fs

end

mutual

/-- Whether the names and numbers of a formula are ones, no selector stands right behind a number,
every call has arguments, and the holes are among the given sockets. -/
def isWritable (sockets : List String) : Formula → Bool
  | input socket | operand socket => socket ∈ sockets
  | number digits => tokens digits = some [.number digits]
  | vector type components => tokens type = some [.name type] && !components.isEmpty &&
    components.all fun digits => tokens digits = some [.number digits]
  | call function arguments => tokens function = some [.name function] && !arguments.isEmpty &&
    areWritable sockets arguments
  | member base selector => tokensFrom .dot selector.toList = some [.dot, .name selector] &&
    !base matches number _ && isWritable sockets base
  | infixed _ left right => isWritable sockets left && isWritable sockets right
  | conditional condition yes no =>
    isWritable sockets condition && isWritable sockets yes && isWritable sockets no

/-- Whether several formulas are writable. -/
def areWritable (sockets : List String) : List Formula → Bool
  | [] => true
  | f :: fs => isWritable sockets f && areWritable sockets fs

end

mutual

/-- The sockets whose input gets a selector as it stands. -/
def selected : Formula → List String
  | member (operand socket) _ => [socket]
  | member base _ => selected base
  | call _ arguments => allSelected arguments
  | infixed _ left right => selected left ++ selected right
  | conditional condition yes no => selected condition ++ selected yes ++ selected no
  | _ => []

/-- The sockets whose input gets a selector in one of several formulas. -/
def allSelected : List Formula → List String
  | [] => []
  | f :: fs => selected f ++ allSelected fs

end

/-- How strongly an expression must hold together where a formula asks for the given strength.
Formulas have no negation, so the highest strength is that of what can stand anywhere. -/
def level (place : Nat) : Nat :=
  if place < tight then place else 5

lemma level_strength (o : Operator) : level o.strength = o.strength :=
  if_pos (Nat.lt_succ_of_le o.strength_le)

lemma level_le_five (place : Nat) : level place ≤ 5 := by
  unfold level tight
  split <;> omega

lemma le_level {place : Nat} (h : place ≤ tight) : place ≤ level place := by
  unfold level tight at *
  split <;> omega

/-- A place that asks for more asks the grammar for more. -/
lemma level_mono {m n : Nat} (h : m ≤ n) : level m ≤ level n := by
  unfold level tight
  split <;> split <;> omega

/-- Arguments are written one after the other, with commas between them. -/
lemma argumentText_eq (texts : String → String) (fs : List Formula) :
    argumentText texts fs = Text.separated ", " (fs.map (text texts)) := by
  induction fs with
  | nil => rfl
  | cons f fs ih =>
    cases fs with
    | nil => rfl
    | cons g gs => simp [argumentText, ih, Text.separated]

/-- Parentheses make a formula hold together as strongly as its place asks. -/
lemma reads_bracketed {f : Formula} {s : String} {e : Expression} (place : Nat)
    (h : Reads (.expression (level f.strength)) s e) :
    Reads (.expression (level place)) (bracketed place f s) e := by
  unfold bracketed
  split
  · have hloose := h.of_le (Nat.zero_le _) (level_le_five _)
    exact hloose.parenthesised.of_le (level_le_five place) (Nat.le_refl 5)
  · exact h.of_le (level_mono (by omega)) (level_le_five _)

section Text

variable {texts : String → String} {inputs : String → Expression} {sockets : List String}

/-- What a selector can be put on is no bare number. -/
lemma not_isBareNumber_bracketed {base : Formula} {selector : String}
    (hinputs : ∀ socket ∈ sockets, Reads .loose (texts socket) (inputs socket))
    (hbase : isWritable sockets (.member base selector) = true)
    (hselected : ∀ socket ∈ selected (.member base selector), ¬ IsBareNumber (texts socket))
    (h : Reads (.expression (level base.strength)) (text texts base) (tree inputs base)) :
    ¬ IsBareNumber (bracketed tight base (text texts base)) := by
  by_cases hstrength : base.strength < tight
  · obtain ⟨ts, hts, -⟩ := h
    rw [bracketed, if_pos hstrength, IsBareNumber, tokens_parenthesised hts]
    simp
  rw [bracketed, if_neg hstrength]
  have hloose := h.of_le (Nat.zero_le _) (level_le_five _)
  cases base with
  | operand socket =>
    have hsocket : socket ∈ sockets := by simp_all [isWritable]
    exact not_isBareNumber_operand (hinputs socket hsocket) (hselected socket (by simp [selected]))
  | vector | call | member => exact hloose.not_isBareNumber (by simp [tree])
  | number => simp [isWritable] at hbase
  | input | conditional => exact absurd (Nat.succ_pos 3) hstrength
  | infixed o => exact absurd (Nat.lt_succ_of_le o.strength_le) hstrength

mutual

/-- The text of a formula is a text of its tree. -/
lemma reads_text (hinputs : ∀ socket ∈ sockets, Reads .loose (texts socket) (inputs socket)) :
    ∀ f : Formula, isWritable sockets f = true →
      (∀ socket ∈ selected f, ¬ IsBareNumber (texts socket)) →
      Reads (.expression (level f.strength)) (text texts f) (tree inputs f)
  | input socket, hf, _ => by
    rw [text, tree]
    exact hinputs socket (by simpa [isWritable] using hf)
  | operand socket, hf, _ => by
    rw [text, tree]
    exact (hinputs socket (by simpa [isWritable] using hf)).operand
  | number digits, hf, _ => by
    rw [text, tree]
    exact ⟨_, by simpa [isWritable] using hf, .number digits⟩
  | vector type components, hf, _ => by
    simp only [isWritable, Bool.and_eq_true, decide_eq_true_eq, Bool.not_eq_true',
      List.isEmpty_eq_false_iff, List.all_eq_true] at hf
    obtain ⟨⟨htype, hne⟩, hcomponents⟩ := hf
    rw [text, tree]
    refine Reads.call htype (.inl rfl) hne (List.forall₂_map_right_iff.mpr ?_)
    refine List.forall₂_same.mpr fun digits hdigits => ?_
    have hnumber : Reads .tight digits (.number digits) :=
      ⟨_, hcomponents digits hdigits, .number digits⟩
    exact hnumber.loose_of_tight
  | call function arguments, hf, hselected => by
    simp only [isWritable, Bool.and_eq_true, decide_eq_true_eq, Bool.not_eq_true',
      List.isEmpty_eq_false_iff] at hf
    obtain ⟨⟨hfunction, hne⟩, harguments⟩ := hf
    rw [text, tree, argumentText_eq]
    exact Reads.call hfunction (.inr rfl) (by simpa using hne)
      (reads_texts hinputs arguments harguments (by simpa [selected] using hselected))
  | member base selector, hf, hselected => by
    have hbase :
        Reads (.expression (level base.strength)) (text texts base) (tree inputs base) := by
      refine reads_text hinputs base (by simp_all [isWritable]) ?_
      cases base <;> simp_all [selected]
    rw [text, tree]
    exact Reads.member (reads_bracketed tight hbase)
      (not_isBareNumber_bracketed hinputs hf hselected hbase) (by simp_all [isWritable])
  | infixed o left right, hf, hselected => by
    simp only [isWritable, Bool.and_eq_true] at hf
    simp only [selected, List.forall_mem_append] at hselected
    have hleft := reads_bracketed o.strength (reads_text hinputs left hf.1 hselected.1)
    have hright := reads_bracketed (o.strength + 1) (reads_text hinputs right hf.2 hselected.2)
    rw [level_strength] at hleft
    rw [text, tree, strength, level_strength]
    exact Reads.infixed o hleft
      (hright.of_le (le_level (Nat.succ_le_succ o.strength_le)) (level_le_five _))
  | conditional condition yes no, hf, hselected => by
    simp only [isWritable, Bool.and_eq_true] at hf
    simp only [selected, List.forall_mem_append] at hselected
    have hcondition := reads_bracketed 1 (reads_text hinputs condition hf.1.1 hselected.1.1)
    have hyes := reads_text hinputs yes hf.1.2 hselected.1.2
    have hno := reads_text hinputs no hf.2 hselected.2
    rw [text, tree, strength]
    exact Reads.conditional hcondition (hyes.of_le (Nat.zero_le _) (level_le_five _))
      (hno.of_le (Nat.zero_le _) (level_le_five _))

/-- The texts of arguments are read as their trees, one by one. -/
lemma reads_texts (hinputs : ∀ socket ∈ sockets, Reads .loose (texts socket) (inputs socket)) :
    ∀ fs : List Formula, areWritable sockets fs = true →
      (∀ socket ∈ allSelected fs, ¬ IsBareNumber (texts socket)) →
      List.Forall₂ (Reads .loose) (fs.map (text texts)) (trees inputs fs)
  | [], _, _ => .nil
  | f :: fs, hfs, hselected => by
    simp only [areWritable, Bool.and_eq_true] at hfs
    simp only [allSelected, List.forall_mem_append] at hselected
    have hf := reads_text hinputs f hfs.1 hselected.1
    rw [List.map_cons, trees]
    exact .cons (hf.of_le (Nat.zero_le _) (level_le_five _))
      (reads_texts hinputs fs hfs.2 hselected.2)

end

end Text

end Formula

end MaterialGraph
