import Mathlib.Data.List.Forall2
import MaterialGraph.Proofs.Expression.Token

/-!
# The grammar of expressions

Expressions are names, numbers, calls, indexings, selections, negations, the infix operators and
the conditional.  `Derives` is their grammar: the infix operators group to the left and bind as
strongly as `Operator.strength` says, negation binds more strongly than all of them, calls,
indexings and selections most strongly, and the conditional least and to the right.  An expression
in parentheses can stand anywhere, and the parentheses leave no trace in the tree.

`Reads` carries the grammar over to texts.  A text can be put together from the texts of the parts
of an expression, if the parts hold together as strongly as the grammar asks.
-/

namespace MaterialGraph

lemma Operator.strength_le (o : Operator) : o.strength ≤ 3 := by
  cases o <;> decide

lemma Operator.strength_pos (o : Operator) : 0 < o.strength := by
  cases o <;> decide

/-- An expression of the shading language. -/
inductive Expression where
  | name (text : String)
  | number (text : String)
  | call (function : String) (arguments : List Expression)
  | index (base position : Expression)
  | member (base : Expression) (selector : String)
  | negate (operand : Expression)
  | infixed (operator : Operator) (left right : Expression)
  | conditional (condition yes no : Expression)

namespace Expression

/-- What a sequence of tokens can be. -/
inductive Phrase where
  /-- An expression that holds together at least so strongly: `0` for conditionals, the strength of
  the operator for an infix operator, `4` for negations and `5` for the rest. -/
  | expression (strength : Nat)
  /-- A call up to the end of one of its arguments. -/
  | calling

/-- Any expression. -/
abbrev Phrase.loose : Phrase := expression 0

/-- An expression that can stand behind a minus sign. -/
abbrev Phrase.unary : Phrase := expression 4

/-- An expression that can stand anywhere. -/
abbrev Phrase.tight : Phrase := expression 5

open Phrase

/-- The grammar. -/
inductive Derives : Phrase → List Token → Expression → Prop where
  | name (s : String) : Derives tight [.name s] (.name s)
  | number (s : String) : Derives tight [.number s] (.number s)
  | parenthesised {ts : List Token} {e : Expression} (inner : Derives loose ts e) :
      Derives tight (.openParen :: ts ++ [.closeParen]) e
  | index {ts us : List Token} {base position : Expression} (hbase : Derives tight ts base)
      (hposition : Derives loose us position) :
      Derives tight (ts ++ .openBracket :: us ++ [.closeBracket]) (.index base position)
  | member {ts : List Token} {base : Expression} (hbase : Derives tight ts base)
      (selector : String) : Derives tight (ts ++ [.dot, .name selector]) (.member base selector)
  | callEmpty (f : String) : Derives tight [.name f, .openParen, .closeParen] (.call f [])
  | callFirst (f : String) {ts : List Token} {e : Expression} (first : Derives loose ts e) :
      Derives calling (.name f :: .openParen :: ts) (.call f [e])
  | callNext {f : String} {es : List Expression} {ts us : List Token} {e : Expression}
      (before : Derives calling ts (.call f es)) (next : Derives loose us e) :
      Derives calling (ts ++ .comma :: us) (.call f (es ++ [e]))
  | callEnd {ts : List Token} {e : Expression} (before : Derives calling ts e) :
      Derives tight (ts ++ [.closeParen]) e
  | negate {ts : List Token} {e : Expression} (operand : Derives unary ts e) :
      Derives unary (.operator .subtract :: ts) (.negate e)
  | infixed (o : Operator) {ts us : List Token} {left right : Expression}
      (hleft : Derives (expression o.strength) ts left)
      (hright : Derives (expression (o.strength + 1)) us right) :
      Derives (expression o.strength) (ts ++ .operator o :: us) (.infixed o left right)
  | conditional {ts us vs : List Token} {condition yes no : Expression}
      (hcondition : Derives (expression 1) ts condition) (hyes : Derives loose us yes)
      (hno : Derives loose vs no) :
      Derives loose (ts ++ .question :: us ++ .colon :: vs) (.conditional condition yes no)
  | weaken {strength : Nat} {ts : List Token} {e : Expression} (h : strength < 5)
      (stronger : Derives (expression (strength + 1)) ts e) : Derives (expression strength) ts e

/-- An expression is also one that need not hold together as strongly. -/
lemma Derives.of_le {m n : Nat} {ts : List Token} {e : Expression}
    (h : Derives (expression n) ts e) (hmn : m ≤ n) (hn : n ≤ 5) :
    Derives (expression m) ts e := by
  obtain ⟨k, rfl⟩ := Nat.exists_eq_add_of_le hmn
  induction k with
  | zero => exact h
  | succ k ih => exact ih (h.weaken (by omega)) (by omega) (by omega)

/-- An expression that can stand anywhere ends with a number only if it is one. -/
lemma Derives.getLast?_of_tight {ts : List Token} {e : Expression} (h : Derives tight ts e) :
    (∃ s, ts = [.number s]) ∨ ∀ s, ts.getLast? ≠ some (.number s) := by
  generalize hp : tight = p at h
  cases h with
  | number s => exact .inl ⟨s, rfl⟩
  | name | callEmpty | parenthesised | index | member | callEnd =>
    exact .inr fun s => by simp [List.getLast?_cons, List.getLast?_append]
  | infixed o =>
    have hstrength : 5 = o.strength := Phrase.expression.inj hp
    have hle := o.strength_le
    omega
  | weaken hlt =>
    obtain rfl := Phrase.expression.inj hp
    omega
  | callFirst | callNext | negate | conditional => cases hp

/-! ### Texts -/

/-- A text that is a number and nothing else. -/
def IsBareNumber (s : String) : Prop :=
  ∃ n, tokens s = some [.number n]

/-- A text is of the given sort, with the given tree. -/
def Reads (p : Phrase) (s : String) (e : Expression) : Prop :=
  ∃ ts, tokens s = some ts ∧ Derives p ts e

/-- A text in parentheses has their two tokens around its own. -/
lemma tokens_parenthesised {s : String} {ts : List Token} (hs : tokens s = some ts) :
    tokens ("(" ++ s ++ ")") = some (.openParen :: ts ++ [.closeParen]) := by
  have hclosed : tokensFrom .blank (s.toList ++ [')']) = some (ts ++ [.closeParen]) :=
    tokensFrom_append_separator Lexeme.separates_closeParen hs rfl
  have hopened := tokensFrom_append_separator (l := .blank) (a := []) Lexeme.separates_openParen
    rfl hclosed
  simpa [tokens] using hopened

namespace Reads

variable {s t u : String} {e e' e'' : Expression}

/-- An expression that binds strongly can stand where less is asked. -/
lemma of_le {m n : Nat} (h : Reads (expression n) s e) (hmn : m ≤ n) (hn : n ≤ 5) :
    Reads (expression m) s e := by
  obtain ⟨ts, hs, hts⟩ := h
  exact ⟨ts, hs, hts.of_le hmn hn⟩

/-- What can stand anywhere is an expression. -/
lemma loose_of_tight (h : Reads tight s e) : Reads loose s e :=
  h.of_le (Nat.zero_le 5) (Nat.le_refl 5)

/-- Between parentheses anything can stand anywhere. -/
lemma parenthesised (h : Reads loose s e) : Reads tight ("(" ++ s ++ ")") e := by
  obtain ⟨ts, hs, hts⟩ := h
  exact ⟨_, tokens_parenthesised hs, hts.parenthesised⟩

/-- A call up to its first argument. -/
lemma callFirst {f : String} (hf : tokens f = some [.name f]) (h : Reads loose s e) :
    Reads calling (f ++ "(" ++ s) (.call f [e]) := by
  obtain ⟨ts, hs, hts⟩ := h
  have hopened := tokensFrom_append_separator Lexeme.separates_openParen hf hs
  exact ⟨_, by simpa [tokens] using hopened, hts.callFirst f⟩

/-- Arguments can be set apart with or without a space. -/
lemma callNext {f separator : String} {es : List Expression}
    (hseparator : separator = "," ∨ separator = ", ") (h : Reads calling s (.call f es))
    (h' : Reads loose t e) : Reads calling (s ++ separator ++ t) (.call f (es ++ [e])) := by
  obtain ⟨ts, hs, hts⟩ := h
  obtain ⟨us, ht, hus⟩ := h'
  refine ⟨ts ++ .comma :: us, ?_, hts.callNext hus⟩
  rcases hseparator with rfl | rfl
  · simpa [tokens] using tokensFrom_append_separator Lexeme.separates_comma hs ht
  · have hblank : tokensFrom .blank [] = some [] := rfl
    have hspaced : tokensFrom .blank (' ' :: t.toList) = some us :=
      tokensFrom_append_space hblank ht
    simpa [tokens] using tokensFrom_append_separator Lexeme.separates_comma hs hspaced

/-- The closing parenthesis makes an expression of a call. -/
lemma callEnd (h : Reads calling s e) : Reads tight (s ++ ")") e := by
  obtain ⟨ts, hs, hts⟩ := h
  have hclosed := tokensFrom_append_separator Lexeme.separates_closeParen hs
    (rfl : tokensFrom .blank [] = some [])
  exact ⟨_, by simpa [tokens] using hclosed, hts.callEnd⟩

/-- A call goes on with any number of arguments, each behind a comma with or without a space. -/
lemma calling_separated {f separator : String} {es es' : List Expression} {texts : List String}
    (hseparator : separator = "," ∨ separator = ", ") (h : Reads calling s (.call f es))
    (hne : texts ≠ []) (htexts : List.Forall₂ (Reads loose) texts es') :
    Reads calling (s ++ separator ++ Text.separated separator texts) (.call f (es ++ es')) := by
  induction htexts generalizing s es with
  | nil => exact absurd rfl hne
  | @cons x e xs rest hx hxs ih =>
    have hnext := callNext hseparator h hx
    cases xs with
    | nil =>
      obtain rfl := List.forall₂_nil_left_iff.mp hxs
      exact hnext
    | cons y ys =>
      have hlater := ih hnext (by simp)
      simpa [Text.separated, String.append_assoc] using hlater

/-- The text of a call. -/
lemma call {f separator : String} {es : List Expression} {texts : List String}
    (hf : tokens f = some [.name f]) (hseparator : separator = "," ∨ separator = ", ")
    (hne : texts ≠ []) (htexts : List.Forall₂ (Reads loose) texts es) :
    Reads tight (f ++ "(" ++ Text.separated separator texts ++ ")") (.call f es) := by
  cases htexts with
  | nil => exact absurd rfl hne
  | @cons x e xs rest hx hxs =>
    have hfirst := callFirst hf hx
    cases xs with
    | nil =>
      obtain rfl := List.forall₂_nil_left_iff.mp hxs
      exact hfirst.callEnd
    | cons y ys =>
      have hall := calling_separated hseparator hfirst (by simp) hxs
      simpa [Text.separated, String.append_assoc] using hall.callEnd

/-- A selector must not follow a number, of which the point would become a part. -/
lemma member {selector : String} (h : Reads tight s e) (hs : ¬ IsBareNumber s)
    (hselector : tokensFrom .dot selector.toList = some [.dot, .name selector]) :
    Reads tight (s ++ "." ++ selector) (.member e selector) := by
  obtain ⟨ts, hts, hderives⟩ := h
  have hlast : ∀ n, ts.getLast? ≠ some (.number n) := by
    rcases hderives.getLast?_of_tight with ⟨n, rfl⟩ | hlast
    · exact absurd ⟨n, hts⟩ hs
    · exact hlast
  have hdotted := tokensFrom_append_dot hts hlast hselector
  exact ⟨_, by simpa [tokens] using hdotted, hderives.member selector⟩

/-- A sign with spaces around it. -/
lemma tokens_spaced {sign : String} {ts us vs : List Token} (hs : tokens s = some ts)
    (hsign : tokens sign = some us) (ht : tokens t = some vs) :
    tokens (s ++ " " ++ sign ++ " " ++ t) = some (ts ++ us ++ vs) := by
  have hspaced := tokensFrom_append_space (tokensFrom_append_space hs hsign) ht
  simpa [tokens] using hspaced

/-- An operator between two operands.  The left one may be made with an operator of the same
strength and the right one may not. -/
lemma infixed (o : Operator) (h : Reads (expression o.strength) s e)
    (h' : Reads (expression (o.strength + 1)) t e') :
    Reads (expression o.strength) (s ++ " " ++ o.symbol ++ " " ++ t) (.infixed o e e') := by
  obtain ⟨ts, hs, hts⟩ := h
  obtain ⟨us, ht, hus⟩ := h'
  have hsign : tokens o.symbol = some [.operator o] := by cases o <;> decide
  exact ⟨_, by simpa using tokens_spaced hs hsign ht, hts.infixed o hus⟩

/-- A conditional, whose condition must not be a conditional itself. -/
lemma conditional (h : Reads (expression 1) s e) (h' : Reads loose t e')
    (h'' : Reads loose u e'') :
    Reads loose (s ++ " ? " ++ t ++ " : " ++ u) (.conditional e e' e'') := by
  obtain ⟨ts, hs, hts⟩ := h
  obtain ⟨us, ht, hus⟩ := h'
  obtain ⟨vs, hu, hvs⟩ := h''
  have hquestion : tokens "?" = some [.question] := by decide
  have hcolon : tokens ":" = some [.colon] := by decide
  have hspaced := tokens_spaced (tokens_spaced hs hquestion ht) hcolon hu
  refine ⟨_, ?_, hts.conditional hus hvs⟩
  simpa [tokens] using hspaced

end Reads

end Expression

end MaterialGraph
