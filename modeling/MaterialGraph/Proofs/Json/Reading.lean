import MaterialGraph.Proofs.Json.Token

/-!
# Reading what has been written

The text of a value is cut into the tokens of the value (`Value.lex_text`), and these are read as
the tree of the value (`Tree.readValue_tokens`).  So a written value is read back whole, with
nothing wrong in it and nothing left over (`Tree.read_text`), provided that each number in it is
read back when it stands alone.
-/

namespace MaterialGraph.Json

/-! ### Numbers -/

namespace Tree

/-- An array or an object. -/
def IsComposite : Tree → Prop
  | array _ _ | object _ _ => True
  | _ => False

lemma isComposite_stoppedField (afterComma : Bool) (fields : List (Key × Tree)) (ts : List Token) :
    (stoppedField afterComma fields ts).IsComposite := by
  unfold stoppedField
  split <;> trivial

/-- Reading that stops inside an array or object gives one. -/
lemma isComposite_abandon {outer : List Open} {t : Tree} (h : outer ≠ [] ∨ t.IsComposite) :
    (abandon outer t).IsComposite := by
  induction outer generalizing t with
  | nil => exact h.resolve_left (fun hne => hne rfl)
  | cons o outer ih =>
    cases o with
    | array items => exact ih (Or.inr trivial)
    | object fields key => exact ih (Or.inr trivial)

/-- What is read inside an array or object belongs to one. -/
lemma isComposite_read (ts : List Token) :
    (∀ outer ≠ [], (readValue outer ts).tree.IsComposite) ∧
      ∀ outer t, outer ≠ [] ∨ t.IsComposite → (readAfter outer t ts).tree.IsComposite := by
  induction hlength : ts.length using Nat.strong_induction_on generalizing ts with
  | _ length ih =>
    subst hlength
    have hinner : ∀ o outer (rest : List Token), rest.length < ts.length →
        (readValue (o :: outer) rest).tree.IsComposite := fun o outer rest hlt =>
      (ih _ hlt rest rfl).1 _ (List.cons_ne_nil o outer)
    have hafter : ∀ outer t (rest : List Token), rest.length < ts.length →
        outer ≠ [] ∨ t.IsComposite → (readAfter outer t rest).tree.IsComposite :=
      fun outer t rest hlt h => (ih _ hlt rest rfl).2 outer t h
    constructor
    · intro outer houter
      have hstop : ∀ t, (stopped outer t).tree.IsComposite := fun t =>
        isComposite_abandon (Or.inl houter)
      unfold readValue
      split
      · exact hstop _
      · exact hafter _ _ _ (by simp) (Or.inl houter)
      · exact hafter _ _ _ (by simp) (Or.inl houter)
      · split
        · exact hstop _
        · exact hafter _ _ _ (by simp) (Or.inl houter)
      · split
        · exact hstop _
        · exact hafter _ _ _ (by simp) (Or.inl houter)
      · exact hstop _
      · exact hafter _ _ _ (by simp only [List.length_cons]; omega) (Or.inl houter)
      · exact hinner _ _ _ (by simp)
      · exact hafter _ _ _ (by simp only [List.length_cons]; omega) (Or.inl houter)
      · exact hinner _ _ _ (by simp only [List.length_cons]; omega)
      · exact hstop _
      · exact hstop _
    · intro outer t h
      have hstop : ∀ outer t, t.IsComposite → (stopped outer t).tree.IsComposite := fun outer t h =>
        isComposite_abandon (Or.inr h)
      unfold readAfter
      split
      · exact h.resolve_left (fun hne => hne rfl)
      · exact hafter _ _ _ (by simp) (Or.inr trivial)
      · exact hstop _ _ trivial
      · exact hinner _ _ _ (by simp)
      · exact hstop _ _ trivial
      · exact hstop _ _ trivial
      · exact hafter _ _ _ (by simp) (Or.inr trivial)
      · exact hinner _ _ _ (by simp only [List.length_cons]; omega)
      · exact hstop _ _ (isComposite_stoppedField _ _ _)
      · exact hstop _ _ trivial
      · exact hstop _ _ trivial

/-- A text that is read as a number, with nothing behind it, has one token. -/
lemma lex_eq_of_read {s : String} {n : Number} (h : read s = ⟨number n, false⟩) :
    Token.lex s.toList = [.scalar (.ok (.number n))] := by
  unfold read at h
  generalize Token.lex s.toList = ts at h
  have hsimple : ∀ r : Reading, r.tree.IsComposite → r ≠ ⟨number n, false⟩ := by
    rintro r hr rfl
    exact hr
  unfold readValue at h
  split at h
  · simp [stopped, abandon] at h
  · rename_i v ts
    cases v <;> cases ts <;> simp_all [readAfter, ofScalar]
  · simp [readAfter] at h
  · split at h <;> simp [stopped, abandon, readAfter] at h
  · split at h <;> simp [stopped, abandon, readAfter] at h
  · simp [stopped, abandon] at h
  · simp [readAfter] at h
  · exact absurd h (hsimple _ ((isComposite_read _).1 _ (List.cons_ne_nil _ _)))
  · simp [readAfter] at h
  · exact absurd h (hsimple _ ((isComposite_read _).1 _ (List.cons_ne_nil _ _)))
  · exact absurd h (hsimple _ (isComposite_stoppedField _ _ _))
  · simp [stopped, abandon] at h

end Tree

/-- The text of the number, on its own, is read as the number. -/
def Number.ReadsBack (n : Number) : Prop :=
  Tree.read n.text = ⟨.number n, false⟩

/-- One half. -/
def Number.half : Number :=
  .real (.finite false (Nat.pow 2 52) (-53))

/-- A floating-point value that reads back. -/
lemma Number.half_readsBack : half.ReadsBack := by
  have htext : half.text.toList = ['0', '.', '5'] := by decide +kernel
  have hnumeral : Token.numeral false ['0', '.', '5'] =
      .ok (⟨false, ['0'], ['5'], none⟩, []) := rfl
  have hvalue : Numeral.value ⟨false, ['0'], ['5'], none⟩ = .ok half := by decide +kernel
  have hnext : Token.next '0' ['.', '5'] = (.scalar (.ok (.number half)), some []) := by
    have hdigit : Token.next '0' ['.', '5'] = Token.ofNumber false ['0', '.', '5'] := rfl
    simp [hdigit, Token.ofNumber, hnumeral, hvalue]
  unfold ReadsBack Tree.read
  rw [htext, Token.lex_cons_of_next (by decide) hnext]
  rfl

/-! ### Tokens -/

namespace Value

open Token

mutual

/-- The tokens of a value. -/
def tokens : Value → List Token
  | null => [.scalar (.ok .null)]
  | bool b => [.scalar (.ok (.bool b))]
  | number n => [.scalar (.ok (.number n))]
  | string s => [.string (.ok s)]
  | array items => .openArray :: (itemTokens items ++ [.closeArray])
  | object fields => .openObject :: (fieldTokens fields ++ [.closeObject])

/-- The tokens of the items of an array. -/
def itemTokens : List Value → List Token
  | [] => []
  | [v] => tokens v
  | v :: vs => tokens v ++ .comma :: itemTokens vs

/-- The tokens of the fields of an object. -/
def fieldTokens : List (String × Value) → List Token
  | [] => []
  | [(key, v)] => .string (.ok key) :: .colon :: tokens v
  | (key, v) :: fs => .string (.ok key) :: .colon :: (tokens v ++ .comma :: fieldTokens fs)

end

mutual

/-- The numbers in a value. -/
def numbers : Value → List Number
  | number n => [n]
  | array items => itemNumbers items
  | object fields => fieldNumbers fields
  | _ => []

/-- The numbers in the items of an array. -/
def itemNumbers : List Value → List Number
  | [] => []
  | v :: vs => numbers v ++ itemNumbers vs

/-- The numbers in the fields of an object. -/
def fieldNumbers : List (String × Value) → List Number
  | [] => []
  | (_, v) :: fs => numbers v ++ fieldNumbers fs

end

mutual

/-- The text of a value is cut into its tokens. -/
lemma lex_text : ∀ (v : Value) (rest : List Char), (∀ n ∈ v.numbers, n.ReadsBack) →
    EndsNumber rest → lex (v.text.toList ++ rest) = v.tokens ++ lex rest
  | null, _, _, _ => lex_cons_of_next (by decide) rfl
  | bool true, _, _, _ => lex_cons_of_next (by decide) rfl
  | bool false, _, _, _ => lex_cons_of_next (by decide) rfl
  | number n, _, hnumbers, hrest =>
    lex_append_of_lex hrest (Tree.lex_eq_of_read (hnumbers n (by simp [numbers])))
  | string s, rest, _, _ => lex_stringText s rest
  | array items, rest, hnumbers, hrest => by
    have htext : (array items).text.toList ++ rest =
        '[' :: ((itemsText items).toList ++ ']' :: rest) := by simp [text]
    have hitems := lex_itemsText items (']' :: rest) hnumbers (endsNumber_cons (by decide) rest)
    rw [htext, lex_openArray, hitems, lex_closeArray]
    simp [tokens]
  | object fields, rest, hnumbers, hrest => by
    have htext : (object fields).text.toList ++ rest =
        '\x7b' :: ((fieldsText fields).toList ++ '\x7d' :: rest) := by simp [text]
    have hfields :=
      lex_fieldsText fields ('\x7d' :: rest) hnumbers (endsNumber_cons (by decide) rest)
    rw [htext, lex_openObject, hfields, lex_closeObject]
    simp [tokens]

/-- The items of an array are cut into their tokens, with commas between them. -/
lemma lex_itemsText : ∀ (items : List Value) (rest : List Char),
    (∀ n ∈ itemNumbers items, n.ReadsBack) → EndsNumber rest →
    lex ((itemsText items).toList ++ rest) = itemTokens items ++ lex rest
  | [], _, _, _ => rfl
  | [v], rest, hnumbers, hrest => lex_text v rest (by simpa [itemNumbers] using hnumbers) hrest
  | v :: w :: vs, rest, hnumbers, hrest => by
    rw [itemNumbers, List.forall_mem_append] at hnumbers
    have htext : (itemsText (v :: w :: vs)).toList ++ rest =
        v.text.toList ++ ',' :: ((itemsText (w :: vs)).toList ++ rest) := by simp [itemsText]
    have hv := lex_text v (',' :: ((itemsText (w :: vs)).toList ++ rest)) hnumbers.1
      (endsNumber_cons (by decide) _)
    have hvs := lex_itemsText (w :: vs) rest hnumbers.2 hrest
    rw [htext, hv, lex_comma, hvs]
    simp [itemTokens]

/-- The fields of an object are cut into their tokens, with commas between them. -/
lemma lex_fieldsText : ∀ (fields : List (String × Value)) (rest : List Char),
    (∀ n ∈ fieldNumbers fields, n.ReadsBack) → EndsNumber rest →
    lex ((fieldsText fields).toList ++ rest) = fieldTokens fields ++ lex rest
  | [], _, _, _ => rfl
  | [(key, v)], rest, hnumbers, hrest => by
    have htext : (fieldsText [(key, v)]).toList ++ rest =
        (stringText key).toList ++ ':' :: (v.text.toList ++ rest) := by simp [fieldsText]
    have hv := lex_text v rest (by simpa [fieldNumbers] using hnumbers) hrest
    rw [htext, lex_stringText, lex_colon, hv]
    simp [fieldTokens]
  | (key, v) :: f :: fs, rest, hnumbers, hrest => by
    rw [fieldNumbers, List.forall_mem_append] at hnumbers
    have htext : (fieldsText ((key, v) :: f :: fs)).toList ++ rest = (stringText key).toList ++
        ':' :: (v.text.toList ++ ',' :: ((fieldsText (f :: fs)).toList ++ rest)) := by
      simp [fieldsText]
    have hv := lex_text v (',' :: ((fieldsText (f :: fs)).toList ++ rest)) hnumbers.1
      (endsNumber_cons (by decide) _)
    have hfs := lex_fieldsText (f :: fs) rest hnumbers.2 hrest
    rw [htext, lex_stringText, lex_colon, hv, lex_comma, hfs]
    simp [fieldTokens]

end

end Value

/-! ### Trees -/

namespace Tree

mutual

/-- The tree of a value. -/
def ofValue : Value → Tree
  | .null => null
  | .bool b => bool b
  | .number n => number n
  | .string s => string s
  | .array items => array (ofItems items) none
  | .object fields => object (ofFields fields) none

/-- The trees of the items of an array. -/
def ofItems : List Value → List Tree
  | [] => []
  | v :: vs => ofValue v :: ofItems vs

/-- The fields of an object with the trees of their values. -/
def ofFields : List (String × Value) → List (Key × Tree)
  | [] => []
  | (key, v) :: fs => (.ok key, ofValue v) :: ofFields fs

end

section Array

variable {outer : List Open} {items : List Tree} {t : Tree}

/-- A value does not start with the end of an array. -/
lemma exists_tokens_eq_cons (v : Value) :
    ∃ token ts, v.tokens = token :: ts ∧ token ≠ .closeArray := by
  cases v <;> simp [Value.tokens]

/-- The first item follows the opening of an array. -/
lemma readValue_openArray (v : Value) (ts : List Token) :
    readValue outer (.openArray :: (v.tokens ++ ts)) =
      readValue (.array [] :: outer) (v.tokens ++ ts) := by
  obtain ⟨token, ts', htokens, hne⟩ := exists_tokens_eq_cons v
  rw [htokens, List.cons_append, readValue]
  · simp
  · simp [hne]

/-- Another item follows a comma in an array. -/
lemma readAfter_comma (v : Value) (ts : List Token) :
    readAfter (.array items :: outer) t (.comma :: (v.tokens ++ ts)) =
      readValue (.array (t :: items) :: outer) (v.tokens ++ ts) := by
  obtain ⟨token, ts', htokens, hne⟩ := exists_tokens_eq_cons v
  rw [htokens, List.cons_append, readAfter]
  simp [hne]

end Array

mutual

/-- The tokens of a value are read as its tree. -/
lemma readValue_tokens : ∀ (v : Value) (outer : List Open) (ts : List Token),
    readValue outer (v.tokens ++ ts) = readAfter outer (ofValue v) ts
  | .null, outer, ts => by
    simp [Value.tokens, readValue, ofScalar, ofValue]
  | .bool b, outer, ts => by
    simp [Value.tokens, readValue, ofScalar, ofValue]
  | .number n, outer, ts => by
    simp [Value.tokens, readValue, ofScalar, ofValue]
  | .string s, outer, ts => by
    simp [Value.tokens, readValue, ofValue]
  | .array [], outer, ts => by
    simp [Value.tokens, Value.itemTokens, readValue, ofValue, ofItems]
  | .array [v], outer, ts => by
    have htokens : (Value.array [v]).tokens ++ ts =
        .openArray :: (v.tokens ++ .closeArray :: ts) := by
      simp [Value.tokens, Value.itemTokens]
    rw [htokens, readValue_openArray, readValue_tokens v, readAfter]
    simp [ofValue, ofItems]
  | .array (v :: w :: vs), outer, ts => by
    have htokens : (Value.array (v :: w :: vs)).tokens ++ ts = .openArray ::
        (v.tokens ++ .comma :: (Value.itemTokens (w :: vs) ++ .closeArray :: ts)) := by
      simp [Value.tokens, Value.itemTokens]
    rw [htokens, readValue_openArray, readValue_tokens v, readAfter_itemTokens (w :: vs) (by simp)]
    simp [ofValue, ofItems]
  | .object [], outer, ts => by
    simp [Value.tokens, Value.fieldTokens, readValue, ofValue, ofFields]
  | .object [(key, v)], outer, ts => by
    have htokens : (Value.object [(key, v)]).tokens ++ ts =
        .openObject :: .string (.ok key) :: .colon :: (v.tokens ++ .closeObject :: ts) := by
      simp [Value.tokens, Value.fieldTokens]
    rw [htokens, readValue, readValue_tokens v, readAfter]
    simp [ofValue, ofFields, keyOf]
  | .object ((key, v) :: f :: fs), outer, ts => by
    have htokens : (Value.object ((key, v) :: f :: fs)).tokens ++ ts =
        .openObject :: .string (.ok key) :: .colon ::
          (v.tokens ++ .comma :: (Value.fieldTokens (f :: fs) ++ .closeObject :: ts)) := by
      simp [Value.tokens, Value.fieldTokens]
    rw [htokens, readValue, readValue_tokens v, readAfter_fieldTokens (f :: fs) (by simp)]
    simp [ofValue, ofFields, keyOf]

/-- The items behind a comma are read one after the other, up to the end of the array. -/
lemma readAfter_itemTokens : ∀ (vs : List Value), vs ≠ [] →
    ∀ (outer : List Open) (items : List Tree) (t : Tree) (ts : List Token),
    readAfter (.array items :: outer) t (.comma :: (Value.itemTokens vs ++ .closeArray :: ts)) =
      readAfter outer (array ((t :: items).reverse ++ ofItems vs) none) ts
  | [], h, _, _, _, _ => absurd rfl h
  | [v], _, outer, items, t, ts => by
    rw [Value.itemTokens, readAfter_comma, readValue_tokens v, readAfter]
    simp [ofItems]
  | v :: w :: vs, _, outer, items, t, ts => by
    have htokens : Value.itemTokens (v :: w :: vs) ++ .closeArray :: ts =
        v.tokens ++ .comma :: (Value.itemTokens (w :: vs) ++ .closeArray :: ts) := by
      simp [Value.itemTokens]
    rw [htokens, readAfter_comma, readValue_tokens v, readAfter_itemTokens (w :: vs) (by simp)]
    simp [ofItems]

/-- The fields behind a comma are read one after the other, up to the end of the object. -/
lemma readAfter_fieldTokens : ∀ (fs : List (String × Value)), fs ≠ [] →
    ∀ (outer : List Open) (fields : List (Key × Tree)) (key : Key) (t : Tree) (ts : List Token),
    readAfter (.object fields key :: outer) t
        (.comma :: (Value.fieldTokens fs ++ .closeObject :: ts)) =
      readAfter outer (object (((key, t) :: fields).reverse ++ ofFields fs) none) ts
  | [], h, _, _, _, _, _ => absurd rfl h
  | [(name, v)], _, outer, fields, key, t, ts => by
    have htokens : Value.fieldTokens [(name, v)] ++ .closeObject :: ts =
        .string (.ok name) :: .colon :: (v.tokens ++ .closeObject :: ts) := by
      simp [Value.fieldTokens]
    rw [htokens, readAfter, readValue_tokens v, readAfter]
    simp [ofFields, keyOf]
  | (name, v) :: f :: fs, _, outer, fields, key, t, ts => by
    have htokens : Value.fieldTokens ((name, v) :: f :: fs) ++ .closeObject :: ts =
        .string (.ok name) :: .colon ::
          (v.tokens ++ .comma :: (Value.fieldTokens (f :: fs) ++ .closeObject :: ts)) := by
      simp [Value.fieldTokens]
    rw [htokens, readAfter, readValue_tokens v, readAfter_fieldTokens (f :: fs) (by simp)]
    simp [ofFields, keyOf]

end

/-- The text of a value is read as its tree, and nothing is left over. -/
theorem read_text {v : Value} (hnumbers : ∀ n ∈ v.numbers, n.ReadsBack) :
    read v.text = ⟨ofValue v, false⟩ := by
  have hlex := v.lex_text [] hnumbers Token.endsNumber_nil
  rw [List.append_nil, Token.lex_nil] at hlex
  rw [read, hlex, readValue_tokens, readAfter]
  rfl

end Tree

end MaterialGraph.Json
