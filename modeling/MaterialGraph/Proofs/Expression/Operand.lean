import MaterialGraph.Proofs.Expression.Grammar

/-!
# Operands hold together

`Text.operand` looks at single characters: it puts a text in parentheses unless only characters of
words stand outside brackets.  Here this is shown to be enough.  If no sign but brackets and points
stands outside brackets, then the characters form names, numbers, points and brackets there
(`atomicFrom_of_tokensFrom`), and an expression with only those outside brackets is one that can
stand anywhere (`Derives.tight_of_atomicFrom`).
-/

namespace MaterialGraph.Expression

open Phrase

/-- Whether only names, numbers, points and brackets stand outside brackets, when `depth` brackets
are open already. -/
def atomicFrom (depth : Nat) : List Token → Bool
  | [] => true
  | .openParen :: ts | .openBracket :: ts => atomicFrom (depth + 1) ts
  | .closeParen :: ts | .closeBracket :: ts => atomicFrom (depth - 1) ts
  | .name _ :: ts | .number _ :: ts | .dot :: ts => atomicFrom depth ts
  | .operator _ :: ts | .comma :: ts | .question :: ts | .colon :: ts =>
    depth != 0 && atomicFrom depth ts

/-! ### From characters to tokens -/

namespace Lexeme

variable {l longer : Lexeme} {c : Char} {d d' : Nat}

/-- The characters of a lexeme take the depth from `d` to `d'`, and none of them is forbidden
there. -/
def Passes : Lexeme → Nat → Nat → Prop
  | blank, d, d' | name _, d, d' | number _, d, d' | dot, d, d' => d = d'
  | whole t, d, d' => ∀ ts, atomicFrom d (t :: ts) = atomicFrom d' ts
  | minus, d, d' | assign, d, d' | decrement, d, d' => d = d' ∧ d ≠ 0

/-- The tokens of a lexeme take the depth where its characters take it. -/
lemma Passes.atomicFrom_append (h : l.Passes d d') {us : List Token} (hus : l.tokens? = some us)
    (ts : List Token) : atomicFrom d (us ++ ts) = atomicFrom d' ts := by
  cases l with
  | whole t =>
    obtain rfl := Option.some.inj hus
    exact h ts
  | minus =>
    obtain ⟨rfl, hd⟩ := h
    obtain rfl := Option.some.inj hus
    simp [atomicFrom, hd]
  | number cs =>
    obtain rfl : d = d' := h
    simp only [tokens?, Option.ite_none_right_eq_some, Option.some.injEq] at hus
    rw [← hus.2]
    rfl
  | blank | name | dot =>
    obtain rfl : d = d' := h
    obtain rfl := Option.some.inj hus
    rfl
  | assign | decrement => cases hus

/-- A character that makes a lexeme longer does not change where it takes the depth.  The only sign
that grows into a whole token is one for an operator. -/
lemma Passes.extend (h : l.Passes d d') (hlonger : l.extend c = some longer) :
    longer.Passes d d' := by
  cases l with
  | blank | whole | decrement => cases hlonger
  | name | number | dot | minus =>
    obtain ⟨-, hlonger⟩ := Option.ite_none_right_eq_some.mp hlonger
    obtain rfl := Option.some.inj hlonger
    exact h
  | assign =>
    obtain ⟨-, hlonger⟩ := Option.ite_none_right_eq_some.mp hlonger
    obtain rfl := Option.some.inj hlonger
    obtain ⟨rfl, hd⟩ := h
    intro ts
    simp [atomicFrom, hd]

/-- A lexeme that does not start with a bracket leaves the depth as it is, and what is allowed
outside brackets is allowed as a token. -/
lemma passes_of_start (hl : start c = some l) (hbracket : c ∉ ['(', '[', ')', ']'])
    (hc : d ≠ 0 ∨ Text.isWordChar c = true) : l.Passes d d := by
  have hsign : Text.isWordChar c = false → d ≠ 0 := fun h => hc.resolve_right (by simp [h])
  simp only [start] at hl
  split at hl
  · obtain rfl := Option.some.inj hl
    rfl
  split at hl
  · obtain rfl := Option.some.inj hl
    rfl
  split at hl
  · obtain rfl := Option.some.inj hl
    rfl
  -- what is left are the signs, of which only the point is allowed outside brackets
  split at hl <;>
    simp only [Option.some.injEq, reduceCtorEq, List.mem_cons, Char.reduceEq, List.not_mem_nil,
      or_false, or_true, not_false_eq_true, not_true_eq_false] at hl hbracket <;>
    subst hl
  · rfl
  · exact ⟨rfl, hsign rfl⟩
  · exact ⟨rfl, hsign rfl⟩
  all_goals
    have hd := hsign rfl
    intro ts
    simp [atomicFrom, hd]

lemma atomicFrom_cons_of_not_bracket (hbracket : c ∉ ['(', '[', ')', ']']) {cs : List Char} :
    Text.atomicFrom d (c :: cs) = true ↔
      (d ≠ 0 ∨ Text.isWordChar c = true) ∧ Text.atomicFrom d cs = true := by
  simp only [List.mem_cons, List.not_mem_nil, or_false, not_or] at hbracket
  simp [Text.atomicFrom, hbracket]

/-- A character that is allowed starts a lexeme that is, and takes the depth to the same place. -/
lemma exists_passes_of_start (hl : start c = some l) {cs : List Char}
    (h : Text.atomicFrom d (c :: cs) = true) :
    ∃ d', l.Passes d d' ∧ Text.atomicFrom d' cs = true := by
  by_cases hbracket : c ∈ ['(', '[', ')', ']']
  · simp only [List.mem_cons, List.not_mem_nil, or_false] at hbracket
    rcases hbracket with rfl | rfl | rfl | rfl <;> obtain rfl := Option.some.inj hl <;>
      exact ⟨_, fun ts => rfl, h⟩
  · obtain ⟨hc, h⟩ := (atomicFrom_cons_of_not_bracket hbracket).mp h
    exact ⟨d, passes_of_start hl hbracket hc, h⟩

/-- A bracket makes no lexeme longer. -/
lemma not_bracket_of_extend (h : l.extend c = some longer) : c ∉ ['(', '[', ')', ']'] := by
  intro hbracket
  have hbreaks : Breaks c := by
    simp only [List.mem_cons, List.not_mem_nil, or_false] at hbracket
    rcases hbracket with rfl | rfl | rfl | rfl <;>
      exact breaks_of_isWordChar_eq_false (by decide) (by decide)
  rw [hbreaks l] at h
  cases h

end Lexeme

/-- A text with only words outside brackets has only names, numbers and points there. -/
lemma atomicFrom_of_tokensFrom {l : Lexeme} {cs : List Char} {ts : List Token} {d d' : Nat}
    (hts : tokensFrom l cs = some ts) (hl : l.Passes d d') (h : Text.atomicFrom d' cs = true) :
    atomicFrom d ts = true := by
  induction cs generalizing l ts d d' with
  | nil => simpa [atomicFrom] using hl.atomicFrom_append hts []
  | cons c cs ih =>
    cases hc : l.extend c with
    | some longer =>
      have hcs := (Lexeme.atomicFrom_cons_of_not_bracket (Lexeme.not_bracket_of_extend hc)).mp h
      rw [tokensFrom_cons_of_extend hc] at hts
      exact ih hts (hl.extend hc) hcs.2
    | none =>
      obtain ⟨done, next, rest, hdone, hnext, hrest, rfl⟩ :=
        (tokensFrom_cons_eq_some_iff hc).mp hts
      obtain ⟨d'', hpasses, h'⟩ := Lexeme.exists_passes_of_start hnext h
      rw [hl.atomicFrom_append hdone]
      exact ih hrest hpasses h'

/-! ### From tokens to the grammar -/

/-- How many brackets are open at the end of a phrase. -/
def Phrase.opened : Phrase → Nat
  | expression _ => 0
  | calling => 1

namespace Derives

variable {p : Phrase} {ts : List Token} {e : Expression}

/-- An expression closes the brackets that it opens, and inside brackets nothing is forbidden. -/
lemma atomicFrom_append (h : Derives p ts e) {d : Nat} (hd : d ≠ 0 ∨ p = calling)
    (rest : List Token) : atomicFrom d (ts ++ rest) = atomicFrom (d + p.opened) rest := by
  induction h generalizing d rest with
  | name | number | callEmpty => simp [atomicFrom, Phrase.opened]
  | parenthesised inner ih => simp [atomicFrom, Phrase.opened, ih]
  | index hbase hposition ihbase ihposition =>
    obtain hd := hd.resolve_right (by simp)
    simp [atomicFrom, Phrase.opened, ihbase, ihposition, hd]
  | member hbase selector ih =>
    obtain hd := hd.resolve_right (by simp)
    simp [atomicFrom, Phrase.opened, ih, hd]
  | callFirst f first ih => simp [atomicFrom, Phrase.opened, ih]
  | callNext before next ihbefore ihnext =>
    simp [atomicFrom, Phrase.opened, ihbefore, ihnext]
  | callEnd before ih => simp [atomicFrom, Phrase.opened, ih]
  | negate operand ih =>
    obtain hd := hd.resolve_right (by simp)
    simp [atomicFrom, Phrase.opened, ih, hd]
  | infixed o hleft hright ihleft ihright =>
    obtain hd := hd.resolve_right (by simp)
    simp [atomicFrom, Phrase.opened, ihleft, ihright, hd]
  | conditional hcondition hyes hno ihcondition ihyes ihno =>
    obtain hd := hd.resolve_right (by simp)
    simp [atomicFrom, Phrase.opened, ihcondition, ihyes, ihno, hd]
  | weaken hlt stronger ih =>
    exact ih (.inl (hd.resolve_right (by simp))) rest

/-- An expression with nothing but names, numbers, points and brackets outside brackets can stand
anywhere. -/
lemma tight_of_atomicFrom (h : Derives p ts e) (hp : p ≠ calling) {rest : List Token}
    (hatomic : atomicFrom 0 (ts ++ rest) = true) :
    Derives tight ts e ∧ atomicFrom 0 rest = true := by
  induction h generalizing rest with
  | name s => exact ⟨.name s, hatomic⟩
  | number s => exact ⟨.number s, hatomic⟩
  | callEmpty f => exact ⟨.callEmpty f, hatomic⟩
  | parenthesised inner =>
    refine ⟨.parenthesised inner, ?_⟩
    simpa [atomicFrom, inner.atomicFrom_append, Phrase.opened] using hatomic
  | index hbase hposition ih =>
    refine ⟨.index hbase hposition, ?_⟩
    rw [List.append_assoc, List.append_assoc] at hatomic
    have hafter := (ih (by simp) hatomic).2
    simpa [atomicFrom, hposition.atomicFrom_append, Phrase.opened] using hafter
  | member hbase selector ih =>
    rw [List.append_assoc] at hatomic
    exact ⟨.member hbase selector, (ih (by simp) hatomic).2⟩
  | callEnd before =>
    refine ⟨.callEnd before, ?_⟩
    simpa [atomicFrom, before.atomicFrom_append, Phrase.opened] using hatomic
  | negate => simp [atomicFrom] at hatomic
  | infixed o hleft hright ihleft =>
    rw [List.append_assoc] at hatomic
    have hafter := (ihleft (by simp) hatomic).2
    simp [atomicFrom] at hafter
  | conditional hcondition hyes hno ihcondition =>
    rw [List.append_assoc, List.append_assoc] at hatomic
    have hafter := (ihcondition (by simp) hatomic).2
    simp [atomicFrom] at hafter
  | weaken hlt stronger ih => exact ih (by simp) hatomic
  | callFirst | callNext => exact absurd rfl hp

end Derives

/-! ### Operands -/

variable {s : String} {e : Expression}

/-- An operand is the text itself or has the tokens of the text in parentheses. -/
lemma tokens_operand {ts : List Token} (h : tokens s = some ts) :
    (Text.operand s = s ∧ atomicFrom 0 ts = true) ∨
      tokens (Text.operand s) = some (.openParen :: ts ++ [.closeParen]) := by
  have htrim : tokensFrom .blank (Text.trim s.toList) = some ts := tokensFrom_trim h
  by_cases hatomic : Text.isAtomic (Text.trim s.toList) = true
  · have hchars : Text.atomicFrom 0 (Text.trim s.toList) = true := by
      simp_all [Text.isAtomic]
    exact .inl ⟨by simp [Text.operand, hatomic], atomicFrom_of_tokensFrom htrim rfl hchars⟩
  · right
    have hcore : tokens (String.ofList (Text.trim s.toList)) = some ts := by
      rwa [tokens, String.toList_ofList]
    simpa [Text.operand, hatomic] using tokens_parenthesised hcore

/-- Every expression can stand anywhere as an operand. -/
lemma Reads.operand (h : Reads loose s e) : Reads tight (Text.operand s) e := by
  obtain ⟨ts, hs, hts⟩ := h
  rcases tokens_operand hs with ⟨hsame, hatomic⟩ | hwrapped
  · rw [hsame]
    rw [← List.append_nil ts] at hatomic
    exact ⟨ts, hs, (hts.tight_of_atomicFrom (by simp) hatomic).1⟩
  · exact ⟨_, hwrapped, hts.parenthesised⟩

/-- An operand is a bare number only if the text is. -/
lemma not_isBareNumber_operand (h : Reads loose s e) (hs : ¬ IsBareNumber s) :
    ¬ IsBareNumber (Text.operand s) := by
  obtain ⟨ts, hts, -⟩ := h
  rcases tokens_operand hts with ⟨hsame, -⟩ | hwrapped
  · rwa [hsame]
  · simp [IsBareNumber, hwrapped]

end MaterialGraph.Expression
