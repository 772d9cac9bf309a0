import MaterialGraph.Json.Decoder
import MaterialGraph.Proofs.Json.Canonical

/-!
# Decoders and what they give

Two things are said about decoders.  A decoder takes written data back if it does so on trees of
values, since these are what written values are read as (`Decoder.run_text`); for lists and maps
that comes down to their members (`Decoder.list_ofValue`, `Decoder.map_ofValue`).

The other way round, whatever is taken out of a tree may have a property because of the way it is
taken out (`Decoder.Gives`).  Members of lists and maps have the properties that their decoder
gives, a map is sorted on top of that, and a record has what its fields keep up one after the other
(`Decoder.fields_keep`).
-/

namespace MaterialGraph.Json.Decoder

variable {α : Type} {d : Decoder α}

/-! ### Records -/

section Record

variable {σ : Type} {step : σ → String → Decoder σ} {stop : Option Defect} {s : σ} {key : String}
  {t : Tree} {fs : List (Except Fault String × Tree)}

@[simp]
lemma fields_nil : fields step none [] s = .ok s := rfl

@[simp]
lemma fields_cons :
    fields step stop ((.ok key, t) :: fs) s = (step s key t).bind (fields step stop fs) := rfl

@[simp]
lemma fill_none : fill key none d t = (d t).map some := rfl

@[simp]
lemma required_some {a : α} : required key (some a) = .ok a := rfl

@[simp]
lemma text_string {s : String} : text (.string s) = .ok s := rfl

@[simp]
lemma flag_bool {b : Bool} : flag (.bool b) = .ok b := rfl

end Record

/-! ### Written data -/

/-- Data is taken out of the text of a value as out of its tree. -/
lemma run_text {v : Value} (hnumbers : ∀ n ∈ v.numbers, n.ReadsBack) :
    d.run v.text = d (.ofValue v) := by
  unfold run
  rw [Tree.read_text hnumbers]
  dsimp only
  cases d (.ofValue v) <;> rfl

/-- A list is read back if its items are. -/
lemma list_ofValue {write : α → Value} {as : List α}
    (h : ∀ a ∈ as, d (.ofValue (write a)) = .ok a) :
    list d (.ofValue (.array (as.map write))) = .ok as := by
  have hitems : items d (Tree.ofItems (as.map write)) = .ok as := by
    induction as with
    | nil => rfl
    | cons a as ih =>
      obtain ⟨ha, has⟩ := List.forall_mem_cons.mp h
      simp [Tree.ofItems, items, ha, ih has, bind, Except.bind, pure, Except.pure]
  simp [Tree.ofValue, list, hitems, ended, unshaped, bind, Except.bind, pure, Except.pure]

/-- A map is read back if its entries are and they are in order. -/
lemma map_ofValue {write : α → Value} {as : List (String × α)} (hsorted : Sorted as)
    (h : ∀ p ∈ as, d (.ofValue (write p.2)) = .ok p.2) :
    map d (.ofValue (.object (as.map fun p => (p.1, write p.2)))) = .ok as := by
  have hentries : entries d (Tree.ofFields (as.map fun p => (p.1, write p.2))) = .ok as := by
    induction as with
    | nil => rfl
    | cons p as ih =>
      obtain ⟨hp, has⟩ := List.forall_mem_cons.mp h
      have htail := ih (List.pairwise_cons.mp hsorted).2 has
      simp [Tree.ofFields, entries, hp, htail, unshaped, bind, Except.bind, pure, Except.pure]
  simp [Tree.ofValue, map, hentries, sortEntries_of_sorted hsorted, ended, unshaped, bind,
    Except.bind, pure, Except.pure]

/-! ### Properties of what is taken out -/

/-- Whatever the decoder takes out of a tree has the property. -/
def Gives (d : Decoder α) (P : α → Prop) : Prop :=
  ∀ t a, d t = .ok a → P a

variable {P : α → Prop}

/-- Items have the property that the decoder gives to each. -/
lemma Gives.items (h : d.Gives P) {ts : List Tree} {as : List α} (has : items d ts = .ok as) :
    ∀ a ∈ as, P a := by
  induction ts generalizing as with
  | nil =>
    obtain rfl := Except.ok.inj has
    exact List.forall_mem_nil _
  | cons t ts ih =>
    obtain ⟨a, ha, has⟩ := bind_eq_ok_iff.mp has
    obtain ⟨as', has', hcons⟩ := bind_eq_ok_iff.mp has
    obtain rfl := Except.ok.inj hcons
    exact List.forall_mem_cons.mpr ⟨h t a ha, ih has'⟩

/-- A list that is read has items with the property. -/
lemma Gives.list (h : d.Gives P) : (list d).Gives fun as => ∀ a ∈ as, P a := by
  intro t as ht
  cases t with
  | array ts stop =>
    obtain ⟨as', has, ht⟩ := bind_eq_ok_iff.mp ht
    obtain ⟨_, _, ht⟩ := bind_eq_ok_iff.mp ht
    obtain rfl := Except.ok.inj ht
    exact h.items has
  | _ => exact nomatch ht

/-- Entries have the property that the decoder gives to each. -/
lemma Gives.entries (h : d.Gives P) {fs : List (Except Fault String × Tree)}
    {as : List (String × α)} (has : entries d fs = .ok as) : ∀ p ∈ as, P p.2 := by
  induction fs generalizing as with
  | nil =>
    obtain rfl := Except.ok.inj has
    exact List.forall_mem_nil _
  | cons f fs ih =>
    obtain ⟨key, _, has⟩ := bind_eq_ok_iff.mp has
    obtain ⟨a, ha, has⟩ := bind_eq_ok_iff.mp has
    obtain ⟨as', has', hcons⟩ := bind_eq_ok_iff.mp has
    obtain rfl := Except.ok.inj hcons
    exact List.forall_mem_cons.mpr ⟨h f.2 a ha, ih has'⟩

/-- A map that is read has entries with the property, in order. -/
lemma Gives.map (h : d.Gives P) : (map d).Gives fun as => Sorted as ∧ ∀ p ∈ as, P p.2 := by
  intro t as ht
  cases t with
  | object fields stop =>
    obtain ⟨as', has, ht⟩ := bind_eq_ok_iff.mp ht
    obtain ⟨_, _, ht⟩ := bind_eq_ok_iff.mp ht
    obtain rfl := Except.ok.inj ht
    exact ⟨sorted_sortEntries, fun p hp => h.entries has p (mem_of_mem_sortEntries hp)⟩
  | _ => exact nomatch ht

/-- What a field puts into its slot has the property. -/
lemma Gives.fill (h : d.Gives P) {name : String} {slot filled : Option α} {t : Tree}
    (hfill : fill name slot d t = .ok filled) : ∀ a, filled = some a → P a := by
  intro a ha
  cases slot with
  | some b => exact absurd hfill nofun
  | none =>
    obtain ⟨b, hb, hsome⟩ := map_eq_ok_iff.mp hfill
    obtain rfl := Option.some.inj (hsome.trans ha)
    exact h t b hb

/-- What is the next item of an array has the property. -/
lemma Gives.next? (h : d.Gives P) {r rest : Items} {item : Option α}
    (hnext : r.next? d = .ok (item, rest)) : ∀ a, item = some a → P a := by
  intro a ha
  unfold Items.next? at hnext
  split at hnext
  · obtain ⟨_, _, hnext⟩ := bind_eq_ok_iff.mp hnext
    simp_all [pure, Except.pure]
  · obtain ⟨b, hb, hnext⟩ := bind_eq_ok_iff.mp hnext
    obtain ⟨hsome, _⟩ := Prod.mk.inj (Except.ok.inj hnext)
    obtain rfl := Option.some.inj (hsome.trans ha)
    exact h _ b hb

/-- The next item of a record in the form of an array has the property. -/
lemma Gives.next (h : d.Gives P) {r rest : Items} {index : Nat} {shape : String} {a : α}
    (hnext : r.next index shape d = .ok (a, rest)) : P a := by
  obtain ⟨⟨item, left⟩, hitem, hnext⟩ := bind_eq_ok_iff.mp hnext
  cases item with
  | none => exact absurd hnext nofun
  | some b =>
    obtain ⟨rfl, _⟩ := Prod.mk.inj (Except.ok.inj hnext)
    exact h.next? hitem b rfl

/-- A property that no field spoils holds in the end. -/
lemma fields_keep {σ : Type} {step : σ → String → Decoder σ} {Q : σ → Prop}
    (hstep : ∀ s key t s', Q s → step s key t = .ok s' → Q s') {stop : Option Defect}
    {fs : List (Except Fault String × Tree)} {s s' : σ} (hs : Q s)
    (h : fields step stop fs s = .ok s') : Q s' := by
  induction fs generalizing s with
  | nil =>
    obtain ⟨_, _, h⟩ := bind_eq_ok_iff.mp h
    exact Except.ok.inj h ▸ hs
  | cons f fs ih =>
    obtain ⟨key, _, h⟩ := bind_eq_ok_iff.mp h
    obtain ⟨next, hnext, h⟩ := bind_eq_ok_iff.mp h
    exact ih (hstep s key f.2 next hs hnext) h

end MaterialGraph.Json.Decoder
