import MaterialGraph.Proofs.Expression.Grammar

/-!
# Reading expressions

`Expression.read` finds the tree of a text.  It goes through the tokens once and keeps a stack of
the expressions that are open: infix operators and negations that wait for an operand, and brackets
and conditionals that wait for their next part.  When an operand is followed by an operator, the
open operators that bind at least as strongly are closed first.

Main statement: `read_eq_some_iff` says that the reader finds a tree just when the grammar has one,
and the same one.  So the grammar gives a text at most one tree (`Reads.unique`).
-/

namespace MaterialGraph.Expression

open Phrase

/-! ### The reader -/

/-- A part of an expression that is still open. -/
inductive Frame where
  /-- An operator with its left operand. -/
  | infixed (operator : Operator) (left : Expression)
  | negate
  | parenthesis
  /-- A call with the arguments that are complete. -/
  | call (function : String) (arguments : List Expression)
  | index (base : Expression)
  /-- A conditional up to its question mark. -/
  | question (condition : Expression)
  /-- A conditional up to its colon. -/
  | colon (condition yes : Expression)

/-- The expression that an open part and its last operand make, if the operand can end in front of
something that binds as strongly as given. -/
def Frame.close? (strength : Nat) : Frame → Expression → Option Expression
  | infixed o left, e => if strength ≤ o.strength then some (.infixed o left e) else none
  | negate, e => if strength ≤ 4 then some (.negate e) else none
  | colon condition yes, e => if strength = 0 then some (.conditional condition yes e) else none
  | _, _ => none

/-- Close what binds at least as strongly as given. -/
def reduce (strength : Nat) : List Frame → Expression → List Frame × Expression
  | [], e => ([], e)
  | f :: frames, e =>
    match f.close? strength e with
    | some e' => reduce strength frames e'
    | none => (f :: frames, e)

/-- Where the reader is. -/
inductive Reader where
  /-- In front of an operand. -/
  | operand (frames : List Frame)
  /-- Behind a name, which may be the name of a function. -/
  | name (frames : List Frame) (text : String)
  /-- Behind the opening parenthesis of a call. -/
  | opened (frames : List Frame) (function : String)
  /-- Behind an expression that can stand anywhere. -/
  | value (frames : List Frame) (e : Expression)
  /-- Behind a point. -/
  | member (frames : List Frame) (base : Expression)

namespace Reader

/-- Read a token in front of an operand. -/
def begin (frames : List Frame) : Token → Option Reader
  | .name s => some (name frames s)
  | .number s => some (value frames (.number s))
  | .openParen => some (operand (.parenthesis :: frames))
  | .operator .subtract => some (operand (.negate :: frames))
  | _ => none

/-- Read a token behind an expression. -/
def proceed (frames : List Frame) (e : Expression) : Token → Option Reader
  | .dot => some (member frames e)
  | .openBracket => some (operand (.index e :: frames))
  | .operator o =>
    let (outer, left) := reduce o.strength frames e
    some (operand (.infixed o left :: outer))
  | .question =>
    let (outer, condition) := reduce 1 frames e
    some (operand (.question condition :: outer))
  | .colon =>
    match reduce 0 frames e with
    | (.question condition :: outer, yes) => some (operand (.colon condition yes :: outer))
    | _ => none
  | .comma =>
    match reduce 0 frames e with
    | (.call f es :: outer, last) => some (operand (.call f (es ++ [last]) :: outer))
    | _ => none
  | .closeParen =>
    match reduce 0 frames e with
    | (.parenthesis :: outer, inner) => some (value outer inner)
    | (.call f es :: outer, last) => some (value outer (.call f (es ++ [last])))
    | _ => none
  | .closeBracket =>
    match reduce 0 frames e with
    | (.index base :: outer, position) => some (value outer (.index base position))
    | _ => none
  | _ => none

/-- Read a token. -/
def step : Reader → Token → Option Reader
  | operand frames, t => begin frames t
  | name frames f, .openParen => some (opened frames f)
  | name frames s, t => proceed frames (.name s) t
  | opened frames f, .closeParen => some (value frames (.call f []))
  | opened frames f, t => begin (.call f [] :: frames) t
  | value frames e, t => proceed frames e t
  | member frames base, .name selector => some (value frames (.member base selector))
  | member _ _, _ => none

/-- The tree that the end of the text completes. -/
def finish (frames : List Frame) (e : Expression) : Option Expression :=
  match reduce 0 frames e with
  | ([], whole) => some whole
  | _ => none

/-- The tree that has been read, at the end of the text. -/
def result : Reader → Option Expression
  | name frames s => finish frames (.name s)
  | value frames e => finish frames e
  | _ => none

/-- Read tokens. -/
def run (r : Reader) (ts : List Token) : Option Reader :=
  ts.foldlM step r

end Reader

/-- The tree of a sequence of tokens. -/
def readTokens (ts : List Token) : Option Expression :=
  (Reader.run (.operand []) ts).bind Reader.result

/-- The tree of a text. -/
def read (s : String) : Option Expression :=
  (tokens s).bind readTokens

/-! ### The reader finds what the grammar derives -/

section Completeness

variable {frames frames' : List Frame} {e e' : Expression} {p : Phrase} {ts us : List Token}
  {r r' : Reader} {k n : Nat}

/-- The reader goes on behind some tokens from where they have brought it. -/
lemma Reader.run_append (hr : r.run ts = some r') : r.run (ts ++ us) = r'.run us := by
  rw [run, List.foldlM_append, ← run, hr]
  rfl

/-- The reader goes on behind a token from where it has brought it. -/
lemma Reader.run_cons (t : Token) (hr : r.step t = some r') : r.run (t :: us) = r'.run us := by
  rw [run, List.foldlM_cons, hr]
  rfl

/-- The innermost open part does not end in front of an operator that can follow an expression of
the given strength. -/
def Admits (n : Nat) : List Frame → Prop
  | [] => True
  | f :: _ => ∀ o : Operator, n ≤ o.strength → ∀ e, f.close? o.strength e = none

/-- Nothing is closed in front of an operator that binds at least as strongly as is admitted. -/
lemma Admits.reduce (h : Admits n frames) (o : Operator) (ho : n ≤ o.strength) :
    reduce o.strength frames e = (frames, e) := by
  cases frames with
  | nil => rfl
  | cons f frames => simp only [Expression.reduce, h o ho e]

/-- What admits weak operators admits strong ones. -/
lemma Admits.mono (h : Admits k frames) (hkn : k ≤ n) : Admits n frames := by
  cases frames with
  | nil => trivial
  | cons f frames => exact fun o ho => h o (Nat.le_trans hkn ho)

/-- Nothing binds so strongly that it ends in front of what can follow any expression. -/
lemma reduce_five : reduce 5 frames e = (frames, e) := by
  cases frames with
  | nil => rfl
  | cons f frames =>
    have hclose : f.close? 5 e = none := by
      cases f with
      | infixed o left =>
        have hstrength := o.strength_le
        exact if_neg (by omega)
      | _ => rfl
    simp only [reduce, hclose]

/-- The reader is behind an expression. -/
inductive Reader.Settled : Reader → List Frame → Expression → Prop where
  | value (frames : List Frame) (e : Expression) : Settled (.value frames e) frames e
  | name (frames : List Frame) (s : String) : Settled (.name frames s) frames (.name s)

/-- Behind an expression every token but an opening parenthesis is read in the same way, whether the
expression is a name or not. -/
lemma Reader.Settled.step (h : r.Settled frames e) {t : Token} (ht : t ≠ .openParen) :
    r.step t = proceed frames e t := by
  cases h with
  | value => rfl
  | name => cases t <;> first | rfl | exact absurd rfl ht

/-- The first token behind an expression, unless it makes a call of a name. -/
lemma Reader.Settled.run_cons (h : r.Settled frames e) {t : Token} (ht : t ≠ .openParen)
    (hr : proceed frames e t = some r') : r.run (t :: us) = r'.run us :=
  Reader.run_cons t ((h.step ht).trans hr)

/-- At the end of the text a name is an expression like any other. -/
lemma Reader.Settled.result (h : r.Settled frames e) : r.result = finish frames e := by
  cases h <;> rfl

/-- What the reader has made of a phrase that began with the given open parts: up to operators that
are still open, the expression; or the call with its last argument. -/
def Phrase.Made (frames : List Frame) (e : Expression) (frames' : List Frame) (e' : Expression) :
    Phrase → Prop
  | expression n => ∀ k ≤ n, reduce k frames' e' = reduce k frames e
  | calling => ∃ f es last, reduce 0 frames' e' = (.call f es :: frames, last) ∧
      e = .call f (es ++ [last])

/-- An operand does not begin with a closing parenthesis. -/
lemma Derives.exists_cons (h : Derives p ts e) : ∃ t us, ts = t :: us ∧ t ≠ .closeParen := by
  induction h with
  | name | number | callEmpty | parenthesised | callFirst | negate =>
    exact ⟨_, _, rfl, by simp⟩
  | index _ _ ih _ | member _ _ ih | callNext _ _ ih _ | callEnd _ ih | infixed _ _ _ ih _ =>
    obtain ⟨t, us, rfl, ht⟩ := ih
    exact ⟨t, _, rfl, ht⟩
  | conditional _ _ _ ih _ _ =>
    obtain ⟨t, us, rfl, ht⟩ := ih
    exact ⟨t, _, rfl, ht⟩
  | weaken _ _ ih => exact ih

/-- Behind an expression that binds most strongly, no operator is open that was not open before. -/
lemma Phrase.Made.eq_of_tight (h : Made frames e frames' e' tight) :
    frames' = frames ∧ e' = e := by
  have hreduce := h 5 (Nat.le_refl 5)
  rw [reduce_five, reduce_five] at hreduce
  exact Prod.mk.inj hreduce

/-- Behind the opening parenthesis of a call the reader is in front of its first argument. -/
lemma Derives.run_opened (h : Derives p ts e) (f : String) :
    (Reader.opened frames f).run ts = (Reader.operand (.call f [] :: frames)).run ts := by
  obtain ⟨t, us, rfl, ht⟩ := h.exists_cons
  have hstep : (Reader.opened frames f).step t =
      (Reader.operand (.call f [] :: frames)).step t := by
    cases t <;> first | rfl | exact absurd rfl ht
  rw [Reader.run, Reader.run, List.foldlM_cons, List.foldlM_cons, hstep]

/-- The reader gets through every phrase. -/
lemma Derives.run (h : Derives p ts e) (frames : List Frame)
    (hframes : ∀ n, p = expression n → Admits n frames) :
    ∃ r frames' e', (Reader.operand frames).run ts = some r ∧ r.Settled frames' e' ∧
      p.Made frames e frames' e' := by
  -- by induction on the derivation, for all open parts: an operand lies inside of more of them
  induction h generalizing frames with
  | name s => exact ⟨_, _, _, rfl, .name frames s, fun k _ => rfl⟩
  | number s => exact ⟨_, _, _, rfl, .value frames (.number s), fun k _ => rfl⟩
  | callEmpty f => exact ⟨_, _, _, rfl, .value frames (.call f []), fun k _ => rfl⟩
  | @parenthesised ts e inner ih =>
    obtain ⟨r, frames', e', hr, hsettled, hmade⟩ :=
      ih (.parenthesis :: frames) fun _ _ _ _ _ => rfl
    have hreduce : reduce 0 frames' e' = (.parenthesis :: frames, e) := hmade 0 (Nat.le_refl 0)
    refine ⟨_, _, _, ?_, .value frames e, fun k _ => rfl⟩
    rw [List.cons_append, Reader.run_cons _ rfl, Reader.run_append hr,
      hsettled.run_cons (by simp) (by rw [Reader.proceed, hreduce])]
    rfl
  | @index ts us base position hbase hposition ihbase ihposition =>
    obtain ⟨r, frames', e', hr, hsettled, hmade⟩ := ihbase frames hframes
    obtain ⟨rfl, rfl⟩ := hmade.eq_of_tight
    obtain ⟨r', frames'', e'', hr', hsettled', hmade'⟩ :=
      ihposition (.index e' :: frames') fun _ _ _ _ _ => rfl
    have hreduce : reduce 0 frames'' e'' = (.index e' :: frames', position) :=
      hmade' 0 (Nat.le_refl 0)
    refine ⟨_, _, _, ?_, .value frames' (.index e' position), fun k _ => rfl⟩
    rw [List.append_assoc, Reader.run_append hr, List.cons_append,
      hsettled.run_cons (by simp) rfl, Reader.run_append hr',
      hsettled'.run_cons (by simp) (by rw [Reader.proceed, hreduce])]
    rfl
  | member hbase selector ih =>
    obtain ⟨r, frames', e', hr, hsettled, hmade⟩ := ih frames hframes
    obtain ⟨rfl, rfl⟩ := hmade.eq_of_tight
    refine ⟨_, _, _, ?_, .value frames' (.member e' selector), fun k _ => rfl⟩
    rw [Reader.run_append hr, hsettled.run_cons (by simp) rfl]
    rfl
  | @callFirst f ts e first ih =>
    obtain ⟨r, frames', e', hr, hsettled, hmade⟩ :=
      ih (.call f [] :: frames) fun _ _ _ _ _ => rfl
    refine ⟨r, frames', e', ?_, hsettled, f, [], e, hmade 0 (Nat.le_refl 0), rfl⟩
    rw [Reader.run_cons _ rfl, Reader.run_cons _ rfl, first.run_opened, hr]
  | @callNext f es ts us e before next ihbefore ihnext =>
    obtain ⟨r, frames', e', hr, hsettled, g, gs, last, hreduce, hcall⟩ :=
      ihbefore frames fun _ h => nomatch h
    obtain ⟨rfl, rfl⟩ := Expression.call.inj hcall
    obtain ⟨r', frames'', e'', hr', hsettled', hmade'⟩ :=
      ihnext (.call f (gs ++ [last]) :: frames) fun _ _ _ _ _ => rfl
    refine ⟨r', frames'', e'', ?_, hsettled', f, _, e, hmade' 0 (Nat.le_refl 0), rfl⟩
    rw [Reader.run_append hr,
      hsettled.run_cons (by simp) (by rw [Reader.proceed, hreduce]), hr']
  | callEnd before ih =>
    obtain ⟨r, frames', e', hr, hsettled, f, es, last, hreduce, rfl⟩ :=
      ih frames fun _ h => nomatch h
    refine ⟨_, _, _, ?_, .value frames (.call f (es ++ [last])), fun k _ => rfl⟩
    rw [Reader.run_append hr,
      hsettled.run_cons (by simp) (by rw [Reader.proceed, hreduce])]
    rfl
  | @negate ts e operand ih =>
    obtain ⟨r, frames', e', hr, hsettled, hmade⟩ := ih (.negate :: frames) fun n hn o ho => by
      obtain rfl := Phrase.expression.inj hn
      have hstrength := o.strength_le
      omega
    refine ⟨r, frames', e', ?_, hsettled, fun k hk => ?_⟩
    · rw [Reader.run_cons _ rfl, hr]
    · rw [hmade k hk, reduce, Frame.close?, if_pos hk]
  | @infixed o ts us left right hleft hright ihleft ihright =>
    obtain ⟨r, frames', e', hr, hsettled, hmade⟩ := ihleft frames hframes
    -- what the left operand has left open is closed in front of the operator, and nothing else
    have hreduce : reduce o.strength frames' e' = (frames, left) :=
      (hmade o.strength (Nat.le_refl _)).trans ((hframes _ rfl).reduce o (Nat.le_refl _))
    obtain ⟨r', frames'', e'', hr', hsettled', hmade'⟩ :=
      ihright (.infixed o left :: frames) fun n hn o' ho' e => by
        obtain rfl := Phrase.expression.inj hn
        exact if_neg (by omega)
    refine ⟨r', frames'', e'', ?_, hsettled', fun k hk => ?_⟩
    · rw [Reader.run_append hr,
        hsettled.run_cons (by simp) (by rw [Reader.proceed, hreduce]), hr']
    · rw [hmade' k (Nat.le_succ_of_le hk), reduce, Frame.close?, if_pos hk]
  | @conditional ts us vs condition yes no hcondition hyes hno ihcondition ihyes ihno =>
    have hadmits : Admits 0 frames := hframes 0 rfl
    obtain ⟨r, frames', e', hr, hsettled, hmade⟩ := ihcondition frames fun n hn => by
      obtain rfl := Phrase.expression.inj hn
      exact hadmits.mono (Nat.zero_le 1)
    have hreduce : reduce 1 frames' e' = (frames, condition) :=
      (hmade 1 (Nat.le_refl 1)).trans (hadmits.reduce .equal (Nat.zero_le _))
    obtain ⟨r', frames'', e'', hr', hsettled', hmade'⟩ :=
      ihyes (.question condition :: frames) fun _ _ _ _ _ => rfl
    have hreduce' : reduce 0 frames'' e'' = (.question condition :: frames, yes) :=
      hmade' 0 (Nat.le_refl 0)
    obtain ⟨r'', outer, inner, hr'', hsettled'', hmade''⟩ :=
      ihno (.colon condition yes :: frames) fun _ _ o _ _ => if_neg (Nat.ne_of_gt o.strength_pos)
    refine ⟨r'', outer, inner, ?_, hsettled'', fun k hk => ?_⟩
    · rw [List.append_assoc, Reader.run_append hr, List.cons_append,
        hsettled.run_cons (by simp) (by rw [Reader.proceed, hreduce]),
        Reader.run_append hr',
        hsettled'.run_cons (by simp) (by rw [Reader.proceed, hreduce']), hr'']
    · obtain rfl := Nat.le_zero.mp hk
      exact hmade'' 0 hk
  | weaken hlt stronger ih =>
    obtain ⟨r, frames', e', hr, hsettled, hmade⟩ := ih frames fun n hn => by
      obtain rfl := Phrase.expression.inj hn
      exact (hframes _ rfl).mono (Nat.le_succ _)
    exact ⟨r, frames', e', hr, hsettled, fun k hk => hmade k (Nat.le_succ_of_le hk)⟩

/-- The reader finds every tree that the grammar derives: at the end of the tokens, closing what is
still open leaves the tree alone. -/
lemma readTokens_of_derives (h : Derives loose ts e) : readTokens ts = some e := by
  obtain ⟨r, frames', e', hr, hsettled, hmade⟩ := h.run [] fun _ _ => trivial
  have hreduce : reduce 0 frames' e' = ([], e) := hmade 0 (Nat.le_refl 0)
  rw [readTokens, hr, Option.bind_some, hsettled.result, Reader.finish, hreduce]

end Completeness

/-! ### The grammar derives what the reader finds -/

section Soundness

/-- How strongly the last operand of an open part must hold together. -/
def Frame.needs : Frame → Nat
  | infixed o _ => o.strength + 1
  | negate => 4
  | _ => 0

/-- How strongly the next operand must hold together. -/
def needs : List Frame → Nat
  | [] => 0
  | f :: _ => f.needs

/-- The tokens that open parts consist of. -/
inductive Consumed : List Frame → List Token → Prop where
  | nil : Consumed [] []
  | infixed (o : Operator) {frames : List Frame} {before ts : List Token} {left : Expression}
      (outer : Consumed frames before) (hneeds : needs frames ≤ o.strength)
      (hleft : Derives (expression o.strength) ts left) :
      Consumed (.infixed o left :: frames) (before ++ ts ++ [.operator o])
  | negate {frames : List Frame} {before : List Token} (outer : Consumed frames before) :
      Consumed (.negate :: frames) (before ++ [.operator .subtract])
  | parenthesis {frames : List Frame} {before : List Token} (outer : Consumed frames before) :
      Consumed (.parenthesis :: frames) (before ++ [.openParen])
  | callFirst (f : String) {frames : List Frame} {before : List Token}
      (outer : Consumed frames before) :
      Consumed (.call f [] :: frames) (before ++ [.name f, .openParen])
  | callNext {f : String} {es : List Expression} {frames : List Frame} {before ts : List Token}
      (outer : Consumed frames before) (arguments : Derives calling ts (.call f es)) :
      Consumed (.call f es :: frames) (before ++ ts ++ [.comma])
  | index {base : Expression} {frames : List Frame} {before ts : List Token}
      (outer : Consumed frames before) (hbase : Derives tight ts base) :
      Consumed (.index base :: frames) (before ++ ts ++ [.openBracket])
  | question {condition : Expression} {frames : List Frame} {before ts : List Token}
      (outer : Consumed frames before) (hneeds : needs frames = 0)
      (hcondition : Derives (expression 1) ts condition) :
      Consumed (.question condition :: frames) (before ++ ts ++ [.question])
  | colon {condition yes : Expression} {frames : List Frame} {before ts us : List Token}
      (outer : Consumed frames before) (hneeds : needs frames = 0)
      (hcondition : Derives (expression 1) ts condition) (hyes : Derives loose us yes) :
      Consumed (.colon condition yes :: frames) (before ++ ts ++ .question :: us ++ [.colon])

variable {frames frames' : List Frame} {e e' : Expression} {before ts us : List Token}
  {r r' : Reader} {t : Token} {k n : Nat}

/-- No open part asks more of its operand than a negation does. -/
lemma needs_le_four (frames : List Frame) : needs frames ≤ 4 := by
  cases frames with
  | nil => exact Nat.zero_le 4
  | cons f _ =>
    cases f with
    | infixed o _ => exact Nat.succ_le_succ o.strength_le
    | _ => simp [needs, Frame.needs]

/-- Open parts that take an operand as weak as a condition take any expression. -/
lemma needs_eq_zero_of_le_one (h : needs frames ≤ 1) : needs frames = 0 := by
  cases frames with
  | nil => rfl
  | cons f _ =>
    cases f with
    | infixed o _ => exact absurd (Nat.le_of_succ_le_succ h) (Nat.not_le_of_gt o.strength_pos)
    | negate => exact absurd h (by simp [needs, Frame.needs])
    | _ => rfl

/-- What does not end in front of something of a strength takes an operand of that strength. -/
lemma Frame.needs_le_of_close?_eq_none {f : Frame} (hk : k ≤ 4) (h : f.close? k e = none) :
    f.needs ≤ k := by
  cases f with
  | infixed o left =>
    have hlt : ¬ k ≤ o.strength := fun hle => by simp [close?, hle] at h
    exact Nat.lt_of_not_le hlt
  | negate => simp [close?, hk] at h
  | _ => exact Nat.zero_le k

/-- Closing open parts moves tokens from the open parts to the operand. -/
lemma Consumed.reduce (h : Consumed frames before) (he : Derives (expression n) ts e)
    (hneeds : needs frames ≤ n) (hkn : k ≤ n) (hk : k ≤ 4) (hn : n ≤ 5)
    (hreduce : Expression.reduce k frames e = (frames', e')) :
    ∃ before' ts', before ++ ts = before' ++ ts' ∧ Consumed frames' before' ∧
      Derives (expression k) ts' e' ∧ needs frames' ≤ k := by
  -- the operand grows with every part that is closed, and binds as weakly as that part
  induction frames generalizing n before ts e with
  | nil =>
    obtain ⟨rfl, rfl⟩ := Prod.mk.inj hreduce
    exact ⟨before, ts, rfl, h, he.of_le hkn hn, Nat.zero_le k⟩
  | cons f frames ih =>
    cases hclose : f.close? k e with
    | none =>
      simp only [Expression.reduce, hclose] at hreduce
      obtain ⟨rfl, rfl⟩ := Prod.mk.inj hreduce
      exact ⟨before, ts, rfl, h, he.of_le hkn hn, Frame.needs_le_of_close?_eq_none hk hclose⟩
    | some closed =>
      simp only [Expression.reduce, hclose] at hreduce
      cases h with
      | infixed o outer hneeds' hleft =>
        obtain ⟨hle, hclose⟩ := Option.ite_none_right_eq_some.mp hclose
        obtain rfl := Option.some.inj hclose
        have hstrength := o.strength_le
        obtain ⟨before', ts', heq, hresult⟩ := ih outer
          (hleft.infixed o (he.of_le hneeds hn)) hneeds' hle (by omega) hreduce
        exact ⟨before', ts', by simpa using heq, hresult⟩
      | negate outer =>
        obtain ⟨hle, hclose⟩ := Option.ite_none_right_eq_some.mp hclose
        obtain rfl := Option.some.inj hclose
        obtain ⟨before', ts', heq, hresult⟩ := ih outer (he.of_le hneeds hn).negate
          (needs_le_four frames) hk (by omega) hreduce
        exact ⟨before', ts', by simpa using heq, hresult⟩
      | colon outer hneeds' hcondition hyes =>
        obtain ⟨rfl, hclose⟩ := Option.ite_none_right_eq_some.mp hclose
        obtain rfl := Option.some.inj hclose
        obtain ⟨before', ts', heq, hresult⟩ := ih outer
          (hcondition.conditional hyes (he.of_le (Nat.zero_le n) hn))
          (Nat.le_of_eq hneeds') (Nat.le_refl 0) (by omega) hreduce
        exact ⟨before', ts', by simpa using heq, hresult⟩
      | parenthesis | callFirst | callNext | index | question => cases hclose

/-- Closing open parts behind an expression that can stand anywhere. -/
lemma Consumed.reduce_tight (h : Consumed frames before) (he : Derives tight ts e) (hk : k ≤ 4)
    (hreduce : Expression.reduce k frames e = (frames', e')) :
    ∃ before' ts', before ++ ts = before' ++ ts' ∧ Consumed frames' before' ∧
      Derives (expression k) ts' e' ∧ needs frames' ≤ k :=
  h.reduce he (Nat.le_succ_of_le (needs_le_four frames)) (Nat.le_succ_of_le hk) hk
    (Nat.le_refl 5) hreduce

/-- The tokens that the reader has read. -/
def Reader.Consumed : Reader → List Token → Prop
  | operand frames, read => Expression.Consumed frames read
  | name frames s, read => ∃ before, read = before ++ [.name s] ∧ Expression.Consumed frames before
  | opened frames f, read =>
    ∃ before, read = before ++ [.name f, .openParen] ∧ Expression.Consumed frames before
  | value frames e, read =>
    ∃ before ts, read = before ++ ts ∧ Expression.Consumed frames before ∧ Derives tight ts e
  | member frames base, read =>
    ∃ before ts, read = before ++ ts ++ [.dot] ∧ Expression.Consumed frames before ∧
      Derives tight ts base

/-- A token in front of an operand keeps what has been made in line with what has been read. -/
lemma Reader.consumed_begin (h : Expression.Consumed frames before)
    (ht : begin frames t = some r) : r.Consumed (before ++ [t]) := by
  unfold begin at ht
  split at ht <;> simp only [Option.some.injEq, reduceCtorEq] at ht <;> subst ht
  · exact ⟨before, rfl, h⟩
  · exact ⟨before, _, rfl, h, .number _⟩
  · exact h.parenthesis
  · exact h.negate

/-- A token behind an operand keeps what has been made in line with what has been read.  All but a
point and an opening bracket close open parts first, and what these were says what the token
completes. -/
lemma Reader.consumed_proceed (h : Expression.Consumed frames before) (he : Derives tight ts e)
    (ht : proceed frames e t = some r) : r.Consumed (before ++ ts ++ [t]) := by
  cases t with
  | name | number | openParen => cases ht
  | dot =>
    obtain rfl := Option.some.inj ht
    exact ⟨before, ts, rfl, h, he⟩
  | openBracket =>
    obtain rfl := Option.some.inj ht
    exact h.index he
  | operator o =>
    rcases hreduce : reduce o.strength frames e with ⟨outer, left⟩
    simp only [proceed, hreduce, Option.some.injEq] at ht
    obtain ⟨before', ts', heq, houter, hleft, hneeds⟩ :=
      h.reduce_tight he (Nat.le_succ_of_le o.strength_le) hreduce
    rw [heq, ← ht]
    exact houter.infixed o hneeds hleft
  | question =>
    rcases hreduce : reduce 1 frames e with ⟨outer, condition⟩
    simp only [proceed, hreduce, Option.some.injEq] at ht
    obtain ⟨before', ts', heq, houter, hcondition, hneeds⟩ := h.reduce_tight he (by omega) hreduce
    rw [heq, ← ht]
    exact houter.question (needs_eq_zero_of_le_one hneeds) hcondition
  | colon =>
    simp only [proceed] at ht
    split at ht
    next condition outer yes hreduce =>
      obtain ⟨before', ts', heq, houter, hyes, -⟩ := h.reduce_tight he (Nat.zero_le 4) hreduce
      rw [heq, ← Option.some.inj ht]
      cases houter with
      | question outer hneeds hcondition =>
        simpa [Reader.Consumed] using outer.colon hneeds hcondition hyes
    next => cases ht
  | comma =>
    simp only [proceed] at ht
    split at ht
    next f es outer last hreduce =>
      obtain ⟨before', ts', heq, houter, hlast, -⟩ := h.reduce_tight he (Nat.zero_le 4) hreduce
      rw [heq, ← Option.some.inj ht]
      cases houter with
      | callFirst f outer =>
        simpa [Reader.Consumed] using outer.callNext (hlast.callFirst f)
      | callNext outer arguments =>
        simpa [Reader.Consumed] using outer.callNext (arguments.callNext hlast)
    next => cases ht
  | closeParen =>
    simp only [proceed] at ht
    split at ht
    next outer inner hreduce =>
      obtain ⟨before', ts', heq, houter, hinner, -⟩ := h.reduce_tight he (Nat.zero_le 4) hreduce
      rw [heq, ← Option.some.inj ht]
      cases houter with
      | parenthesis outer => exact ⟨_, _, by simp, outer, hinner.parenthesised⟩
    next f es outer last hreduce =>
      obtain ⟨before', ts', heq, houter, hlast, -⟩ := h.reduce_tight he (Nat.zero_le 4) hreduce
      rw [heq, ← Option.some.inj ht]
      cases houter with
      | callFirst f outer => exact ⟨_, _, by simp, outer, (hlast.callFirst f).callEnd⟩
      | callNext outer arguments =>
        exact ⟨_, _, by simp, outer, (arguments.callNext hlast).callEnd⟩
    next => cases ht
  | closeBracket =>
    simp only [proceed] at ht
    split at ht
    next base outer position hreduce =>
      obtain ⟨before', ts', heq, houter, hposition, -⟩ := h.reduce_tight he (Nat.zero_le 4) hreduce
      rw [heq, ← Option.some.inj ht]
      cases houter with
      | index outer hbase => exact ⟨_, _, by simp, outer, hbase.index hposition⟩
    next => cases ht

/-- One token keeps what the reader has made in line with what it has read. -/
lemma Reader.Consumed.step (h : r.Consumed before) (ht : r.step t = some r') :
    r'.Consumed (before ++ [t]) := by
  cases r with
  | operand frames => exact consumed_begin h ht
  | name frames s =>
    obtain ⟨before, rfl, h⟩ := h
    by_cases hparen : t = .openParen
    · subst hparen
      obtain rfl := Option.some.inj ht
      exact ⟨before, by simp, h⟩
    · rw [(Settled.name frames s).step hparen] at ht
      exact consumed_proceed h (.name s) ht
  | opened frames f =>
    obtain ⟨before, rfl, h⟩ := h
    by_cases hparen : t = .closeParen
    · subst hparen
      obtain rfl := Option.some.inj ht
      exact ⟨before, _, by simp, h, .callEmpty f⟩
    · have hbegin : begin (.call f [] :: frames) t = some r' := by
        rw [← ht]
        cases t <;> first | rfl | exact absurd rfl hparen
      exact consumed_begin (h.callFirst f) hbegin
  | value frames e =>
    obtain ⟨before, ts, rfl, h, he⟩ := h
    exact consumed_proceed h he ht
  | member frames base =>
    obtain ⟨before, ts, rfl, h, hbase⟩ := h
    cases t with
    | name selector =>
      obtain rfl := Option.some.inj ht
      exact ⟨before, _, by simp, h, hbase.member selector⟩
    | _ => cases ht

/-- Any number of tokens keeps what has been made in line with what has been read. -/
lemma Reader.Consumed.run (h : r.Consumed before) (hr : r.run ts = some r') :
    r'.Consumed (before ++ ts) := by
  induction ts generalizing r before with
  | nil =>
    obtain rfl := Option.some.inj hr
    simpa using h
  | cons t ts ih =>
    rw [Reader.run, List.foldlM_cons] at hr
    obtain ⟨next, hnext, hrest⟩ := Option.bind_eq_some_iff.mp hr
    simpa using ih (h.step hnext) hrest

/-- What the end of the text completes is derived from all that has been read. -/
lemma Reader.Consumed.result (h : r.Consumed ts) (he : r.result = some e) : Derives loose ts e := by
  have hfinish {frames : List Frame} {e' : Expression} {before us : List Token}
      (h : Expression.Consumed frames before) (he' : Derives tight us e')
      (he : finish frames e' = some e) : Derives loose (before ++ us) e := by
    unfold finish at he
    split at he
    next whole hreduce =>
      obtain rfl := Option.some.inj he
      obtain ⟨before', ts', heq, houter, hwhole, -⟩ := h.reduce_tight he' (Nat.zero_le 4) hreduce
      cases houter
      rw [heq]
      exact hwhole
    next => cases he
  cases r with
  | name frames s =>
    obtain ⟨before, rfl, h⟩ := h
    exact hfinish h (.name s) he
  | value frames e' =>
    obtain ⟨before, us, rfl, h, he'⟩ := h
    exact hfinish h he' he
  | operand | opened | member => cases he

/-- The grammar derives every tree that the reader finds, since the reader starts with nothing made
and nothing read. -/
lemma derives_of_readTokens (h : readTokens ts = some e) : Derives loose ts e := by
  obtain ⟨r, hr, he⟩ := Option.bind_eq_some_iff.mp h
  have hconsumed : (Reader.operand []).Consumed [] := .nil
  exact (hconsumed.run hr).result he

end Soundness

/-- The reader finds the tree that the grammar gives a text, and only that. -/
theorem read_eq_some_iff {s : String} {e : Expression} : read s = some e ↔ Reads loose s e := by
  rw [read, Option.bind_eq_some_iff]
  exact exists_congr fun ts => and_congr_right fun _ =>
    ⟨derives_of_readTokens, readTokens_of_derives⟩

/-- A text has at most one tree. -/
lemma Reads.unique {s : String} {e e' : Expression} (h : Reads loose s e) (h' : Reads loose s e') :
    e = e' :=
  Option.some.inj ((read_eq_some_iff.mpr h).symm.trans (read_eq_some_iff.mpr h'))

/-- A text whose tree is no number is no bare number. -/
lemma Reads.not_isBareNumber {s : String} {e : Expression} (h : Reads loose s e)
    (he : ∀ n, e ≠ .number n) : ¬ IsBareNumber s := by
  rintro ⟨n, hs⟩
  have hnumber : Reads tight s (.number n) := ⟨_, hs, .number n⟩
  exact he n (h.unique hnumber.loose_of_tight)

end MaterialGraph.Expression
