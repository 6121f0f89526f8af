import ResourceEngine.Proofs.Codec.RoundTrip

/-!
# What a body overrides

A body that is decoded puts the last value it gives for a name into the field under that name, and
leaves everything else of the entity as it is; decoding it again changes nothing. A body that cannot
be decoded stops at the first pair that a field refuses, and what stands before this pair has been
assigned.
-/

namespace ResourceEngine

/-- The field takes this value from what a pair gives: it can be read, and converts to the value,
which is null only where that is allowed. -/
structure Field.Accepts (f : Field) (v : Option Value) (w : Value) : Prop where
  converts : ∃ u, v = some u ∧ f.kind.coerce u = .ok w
  nullable : w = .null → f.nullable = true

/-- What is wrong with what a pair gives for the field. -/
inductive Field.Refuses (f : Field) : Option Value → Problem → Prop where
  | unreadable : Refuses f none (.malformedField f.name)
  | null (hf : f.nullable = false) : Refuses f (some .null) (.nullField f.name)
  | unfit {v : Value} {e : CoercionFailure} (hv : f.kind.coerce v = .error e) :
    Refuses f (some v) (.undecodableField f.name e)

/-- The pair names a field that refuses its value. -/
def BodyPair.Offends (s : Schema) (pair : BodyPair) (p : Problem) : Prop :=
  ∃ f, s.field? pair.1 = some f ∧ f.Refuses pair.2 p

/-- The second entity is the first with what the pairs give: a field that a pair names holds what it
accepts of the last such pair, and all else is the same. -/
structure Entity.Overrides (pairs : List BodyPair) (e e' : Entity) : Prop where
  schema : e'.schema = e.schema
  relations : e'.relations = e.relations
  length : e'.values.length = e.values.length
  named : ∀ name i f v, e.schema.fieldIndex? name = some i → e.schema.fields[i]? = some f →
    lastFor name pairs = some v → ∃ w, f.Accepts v w ∧ e'.getAt? i = some w
  kept : ∀ i, (∀ pair ∈ pairs, e.schema.fieldIndex? pair.1 ≠ some i) → e'.getAt? i = e.getAt? i

/-- How the pairs of a body that are assigned come from those that are written: in a form all of
them in their order, with texts for values, and in the other formats in the order of the octets of
their names, each name once with the last value written for it. -/
def Body.Ordered : MediaFormat → List BodyPair → List BodyPair → Prop
  | .form, written, pairs => pairs = written ∧ ∀ pair ∈ pairs, ∃ s, pair.2 = some (.text s)
  | _, written, pairs =>
    pairs.Pairwise (fun pair pair' => Text.toUtf8 pair.1 < Text.toUtf8 pair'.1) ∧
      ∀ name, lastFor name pairs = lastFor name written

/-! ### The order of pairs -/

namespace Body

variable {α : Type}

theorem pairwise_keepLast {entries : List (String × α)} (h : entries.Pairwise (·.1 ≤ ·.1)) :
    (keepLast entries).Pairwise (·.1 < ·.1) := by
  fun_induction keepLast entries with
  | case1 | case2 => simp
  | case3 e e' rest heq ih => exact ih h.of_cons
  | case4 e e' rest hne ih =>
    refine List.pairwise_cons.2 ⟨fun entry hentry => ?_, ih h.of_cons⟩
    have hfirst : e.1 < e'.1 := lt_of_le_of_ne (List.rel_of_pairwise_cons h List.mem_cons_self) hne
    rcases List.mem_cons.1 (mem_of_mem_keepLast hentry) with rfl | hrest
    · exact hfirst
    · exact hfirst.trans_le (List.rel_of_pairwise_cons h.of_cons hrest)

theorem pairwise_byKey (entries : List (String × α)) : (byKey entries).Pairwise (·.1 < ·.1) := by
  refine pairwise_keepLast ?_
  have hsorted := List.pairwise_mergeSort le_key_trans le_key_total entries
  exact hsorted.imp fun h => of_decide_eq_true h

variable {format : MediaFormat} {body : List UInt8} {pairs : List BodyPair}

theorem exists_ordered (h : Body.pairs format body = .ok pairs) :
    ∃ written, written? format body = some written ∧ Ordered format written pairs := by
  obtain ⟨written, hwritten, hlast⟩ := exists_written?_of_pairs h
  refine ⟨written, hwritten, ?_⟩
  cases format with
  | json =>
    refine ⟨?_, hlast⟩
    simp only [Body.pairs, jsonPairs] at h
    split at h <;> cases h
    exact List.pairwise_map.2 ((pairwise_byKey _).imp Text.toUtf8_lt)
  | form =>
    cases h
    cases hwritten
    refine ⟨rfl, fun pair hpair => ?_⟩
    obtain ⟨entry, -, rfl⟩ := List.mem_map.1 hpair
    exact ⟨entry.2, rfl⟩
  | cbor =>
    refine ⟨?_, hlast⟩
    simp only [Body.pairs, cborPairs] at h
    split_ifs at h
    split at h <;> cases h
    exact List.pairwise_map.2 ((pairwise_byKey _).imp Text.toUtf8_lt)

end Body

/-! ### What a field accepts -/

/-- Only null is converted to null. -/
theorem Kind.eq_null_of_coerce {k : Kind} {v : Value} (h : k.coerce v = .ok .null) : v = .null := by
  unfold coerce at h
  split at h
  next hv => exact Value.isNull_iff.1 hv
  next =>
    split at h
    next w hw =>
      cases h
      have hnull := admits_of_convert? hw
      cases k <;> cases hnull
    next => exact nomatch h

theorem Field.Accepts.unique {f : Field} {v : Option Value} {w w' : Value} (h : f.Accepts v w)
    (h' : f.Accepts v w') : w = w' := by
  obtain ⟨u, rfl, hu⟩ := h.converts
  obtain ⟨_, ⟨⟩, hu'⟩ := h'.converts
  exact Except.ok.inj (hu.symm.trans hu')

namespace Schema

variable {s : Schema} {name : String} {f : Field} {i : Nat}

theorem exists_fieldIndex?_of_field? (h : s.field? name = some f) :
    ∃ i, s.fieldIndex? name = some i ∧ s.fields[i]? = some f := by
  rw [field?_eq] at h
  exact Option.bind_eq_some_iff.1 h

theorem exists_getElem?_of_fieldIndex? (h : s.fieldIndex? name = some i) :
    ∃ f, s.fields[i]? = some f ∧ s.field? name = some f ∧ f.name = name := by
  have hcolumn := getElem?_of_fieldIndex? h
  rw [getElem?_columns] at hcolumn
  obtain ⟨f, hf, hname⟩ := Option.map_eq_some_iff.1 hcolumn
  exact ⟨f, hf, by rw [field?_eq, h]; exact hf, hname⟩

theorem fieldIndex?_eq_none (h : ∀ i f, s.fieldIndex? name = some i → s.field? name = some f → False) :
    s.fieldIndex? name = none := by
  cases hindex : s.fieldIndex? name with
  | none => rfl
  | some i =>
    obtain ⟨f, -, hfield, -⟩ := exists_getElem?_of_fieldIndex? hindex
    exact (h i f hindex hfield).elim

end Schema

namespace Entity

section

variable {f : Field} {v : Option Value} {w : Value} {p : Problem}

theorem accept_eq_ok_iff : accept f v = .ok w ↔ f.Accepts v w := by
  unfold accept
  split
  next => exact iff_of_false nofun fun h => nomatch h.converts
  next =>
    constructor
    · intro h
      split at h
      next hf =>
        cases h
        exact ⟨⟨.null, rfl, rfl⟩, fun _ => hf⟩
      next => exact nomatch h
    · rintro ⟨⟨_, ⟨⟩, hw⟩, hf⟩
      cases hw
      rw [if_pos (hf rfl)]
  next v hv =>
    constructor
    · intro h
      split at h
      next w' hw =>
        cases h
        exact ⟨⟨v, rfl, hw⟩, fun hnull => absurd (Kind.eq_null_of_coerce (hnull ▸ hw)) hv⟩
      next => exact nomatch h
    · rintro ⟨⟨_, ⟨⟩, hw⟩, -⟩
      rw [hw]

theorem accept_eq_error_iff : accept f v = .error p ↔ f.Refuses v p := by
  unfold accept
  split
  next =>
    constructor
    · rintro ⟨⟩
      exact .unreadable
    · rintro ⟨⟩
      rfl
  next =>
    constructor
    · intro h
      split at h
      next => exact nomatch h
      next hf =>
        cases h
        exact .null (by simpa using hf)
    · rintro (_ | hf | hv)
      · simp [hf]
      · exact nomatch hv
  next v hv =>
    constructor
    · intro h
      split at h
      next => exact nomatch h
      next e he =>
        cases h
        exact .unfit he
    · rintro (_ | _ | he)
      · exact absurd rfl hv
      · rw [he]

end

/-! ### Assigning pairs -/

variable {e e' e'' : Entity} {pairs : List BodyPair} {p : Problem} {i : Nat}

theorem assign_cons_of_none {name : String} (h : e.schema.fieldIndex? name = none)
    (v : Option Value) (rest : List BodyPair) : e.assign ((name, v) :: rest) = e.assign rest := by
  rw [assign, h]

/-- Pairs that name no field do not matter, whatever they give. -/
theorem assign_filter (e : Entity) (pairs : List BodyPair) :
    e.assign (pairs.filter fun pair => (e.schema.fieldIndex? pair.1).isSome) = e.assign pairs := by
  fun_induction assign e pairs with
  | case1 => rfl
  | case2 e name v rest j f hfield hindex w hw ih =>
    rw [List.filter_cons_of_pos (by simp [hindex])]
    simpa only [assign, hfield, hindex, hw, schema_setAt] using ih
  | case3 e name v rest j f hfield hindex p hp =>
    rw [List.filter_cons_of_pos (by simp [hindex])]
    simp only [assign, hfield, hindex, hp]
  | case4 e name v rest hunknown ih =>
    rw [List.filter_cons_of_neg (by simp [Schema.fieldIndex?_eq_none hunknown]), ih]

/-- Positions that no pair names are kept. -/
theorem getAt?_assign_of_not_named (hi : ∀ pair ∈ pairs, e.schema.fieldIndex? pair.1 ≠ some i)
    (h : e.assign pairs = (e', .ok ())) : e'.getAt? i = e.getAt? i := by
  fun_induction assign e pairs with
  | case1 e =>
    cases h
    rfl
  | case2 e name v rest j f hfield hindex w hw ih =>
    obtain ⟨hname, hrest⟩ := List.forall_mem_cons.1 hi
    have hij : j ≠ i := fun hij => hname (hij ▸ hindex)
    rw [ih hrest h, getAt?_setAt_of_ne hij]
  | case3 => cases h
  | case4 e name v rest hunknown ih => exact ih (List.forall_mem_cons.1 hi).2 h

theorem forall_not_offends_of_assign (h : e.assign pairs = (e', .ok ())) :
    ∀ pair ∈ pairs, ∀ p, ¬pair.Offends e.schema p := by
  fun_induction assign e pairs with
  | case1 e => exact List.forall_mem_nil _
  | case2 e name v rest j f hfield hindex w hw ih =>
    refine List.forall_mem_cons.2 ⟨?_, ih h⟩
    rintro p ⟨f', hf', hrefuses⟩
    obtain rfl := Option.some.inj (hfield.symm.trans hf')
    cases hw.symm.trans (accept_eq_error_iff.2 hrefuses)
  | case3 => cases h
  | case4 e name v rest hunknown ih =>
    refine List.forall_mem_cons.2 ⟨?_, ih h⟩
    rintro p ⟨f, hf, -⟩
    obtain ⟨i, hindex, -⟩ := Schema.exists_fieldIndex?_of_field? hf
    exact hunknown i f hindex hf

/-- Pairs that cannot all be assigned stop at the first one that offends. -/
theorem exists_offends_of_assign (h : e.assign pairs = (e', .error p)) :
    ∃ before bad after, pairs = before ++ bad :: after ∧
      (∀ pair ∈ before, ∀ p, ¬pair.Offends e.schema p) ∧ bad.Offends e.schema p ∧
      e.assign before = (e', .ok ()) := by
  -- That no pair before it offends follows from their having been assigned.
  have hsplit : ∃ before bad after, pairs = before ++ bad :: after ∧ bad.Offends e.schema p ∧
      e.assign before = (e', .ok ()) := by
    fun_induction assign e pairs with
    | case1 => cases h
    | case2 e name v rest j f hfield hindex w hw ih =>
      obtain ⟨before, bad, after, rfl, hbad, hassign⟩ := ih h
      refine ⟨(name, v) :: before, bad, after, rfl, hbad, ?_⟩
      simp only [assign, hfield, hindex, hw, hassign]
    | case3 e name v rest j f hfield hindex p' hp =>
      cases h
      exact ⟨[], (name, v), rest, rfl, ⟨f, hfield, accept_eq_error_iff.1 hp⟩, rfl⟩
    | case4 e name v rest hunknown ih =>
      obtain ⟨before, bad, after, rfl, hbad, hassign⟩ := ih h
      refine ⟨(name, v) :: before, bad, after, rfl, hbad, ?_⟩
      rw [assign_cons_of_none (Schema.fieldIndex?_eq_none hunknown), hassign]
  obtain ⟨before, bad, after, hpairs, hbad, hassign⟩ := hsplit
  exact ⟨before, bad, after, hpairs, forall_not_offends_of_assign hassign, hbad, hassign⟩

/-- Where no pair offends, all of them are assigned. -/
theorem exists_assign_of_not_offends (h : ∀ pair ∈ pairs, ∀ p, ¬pair.Offends e.schema p) :
    ∃ e', e.assign pairs = (e', .ok ()) := by
  refine exists_assign fun pair hpair f hf => ?_
  cases haccept : accept f pair.2 with
  | ok w => exact ⟨w, rfl⟩
  | error p => exact absurd ⟨f, hf, accept_eq_error_iff.1 haccept⟩ (h pair hpair p)

theorem overrides_assign (hlength : e.values.length = e.schema.fields.length)
    (h : e.assign pairs = (e', .ok ())) : e.Overrides pairs e' := by
  obtain ⟨hschema, hrelations, hvalues⟩ := frame_assign h
  refine ⟨hschema, hrelations, hvalues, fun name i f v hname hf hlast => ?_,
    fun i hi => getAt?_assign_of_not_named hi h⟩
  obtain ⟨f', hf', hfield, rfl⟩ := Schema.exists_getElem?_of_fieldIndex? hname
  obtain rfl := Option.some.inj (hf.symm.trans hf')
  have hi : i < e.values.length := hlength ▸ (List.getElem?_eq_some_iff.1 hf).1
  have hvalue := getAt?_assign_of_fieldIndex? hname hf hi h
  rw [Field.taken?, hlast] at hvalue
  cases haccept : accept f v with
  | ok w => exact ⟨w, accept_eq_ok_iff.1 haccept, hvalue.trans (coerce_of_accept haccept)⟩
  | error p =>
    exact absurd ⟨f, hfield, accept_eq_error_iff.1 haccept⟩
      (forall_not_offends_of_assign h _ (mem_of_lastFor hlast) p)

/-- What the pairs make of an entity is determined. -/
theorem Overrides.unique (h : Overrides pairs e e') (h' : Overrides pairs e e'') : e' = e'' := by
  have hvalues : e'.values = e''.values := by
    refine List.ext_getElem? fun i => ?_
    -- A position is kept, or the last pair that names its field decides it.
    by_cases hi : ∀ pair ∈ pairs, e.schema.fieldIndex? pair.1 ≠ some i
    · exact (h.kept i hi).trans (h'.kept i hi).symm
    · push Not at hi
      obtain ⟨pair, hpair, hname⟩ := hi
      obtain ⟨f, hf, -⟩ := Schema.exists_getElem?_of_fieldIndex? hname
      obtain ⟨v, hlast⟩ := exists_lastFor_of_mem hpair
      obtain ⟨w, hw, hvalue⟩ := h.named _ i f v hname hf hlast
      obtain ⟨w', hw', hvalue'⟩ := h'.named _ i f v hname hf hlast
      obtain rfl := hw.unique hw'
      exact hvalue.trans hvalue'.symm
  obtain ⟨s, values, relations⟩ := e'
  obtain ⟨s', values', relations'⟩ := e''
  obtain rfl : s = s' := h.schema.trans h'.schema.symm
  obtain rfl : relations = relations' := h.relations.trans h'.relations.symm
  obtain rfl : values = values' := hvalues
  rfl

/-- An entity that has been overridden is not changed by the same pairs. -/
theorem Overrides.self (h : Overrides pairs e e') : Overrides pairs e' e' where
  schema := rfl
  relations := rfl
  length := rfl
  named name i f v hname hf hlast := h.named name i f v (h.schema ▸ hname) (h.schema ▸ hf) hlast
  kept _ _ := rfl

/-- Assigning the same pairs again changes nothing. -/
theorem assign_assign (hlength : e.values.length = e.schema.fields.length)
    (h : e.assign pairs = (e', .ok ())) : e'.assign pairs = (e', .ok ()) := by
  -- The pairs offend no more than before, so they are assigned again, and what they make of an
  -- entity is determined.
  have hoverrides := overrides_assign hlength h
  have hoffends := forall_not_offends_of_assign h
  rw [← hoverrides.schema] at hoffends
  obtain ⟨e'', hagain⟩ := exists_assign_of_not_offends hoffends
  have hlength' : e'.values.length = e'.schema.fields.length := by
    rw [hoverrides.length, hoverrides.schema, hlength]
  rw [hagain, (overrides_assign hlength' hagain).unique hoverrides.self]

/-- What decoding does to an entity. Where the body cannot be read, nothing. Where it can, it gives
pairs in an order. If none of them offends they are all assigned: each field that is named holds
what it accepts of the last pair for its name, everything else is as before, and decoding again
changes nothing; pairs that name no field do not matter. Otherwise the pairs before the first one
that offends have been assigned. -/
theorem decode_overrides {body : List UInt8} {contentType : String} {format : MediaFormat}
    (hlength : e.values.length = e.schema.fields.length)
    (hformat : MediaFormat.detect contentType = .ok format) :
    (∀ p, Body.pairs format body = .error p → e.decode body contentType = (e, .error p)) ∧
    ∀ pairs, Body.pairs format body = .ok pairs →
      (∃ written, Body.written? format body = some written ∧ Body.Ordered format written pairs) ∧
      e.decode body contentType =
        e.assign (pairs.filter fun pair => (e.schema.fieldIndex? pair.1).isSome) ∧
      ((∃ e', e.decode body contentType = (e', .ok ())) ↔
        ∀ pair ∈ pairs, ∀ p, ¬pair.Offends e.schema p) ∧
      (∀ e', e.decode body contentType = (e', .ok ()) →
        e.Overrides pairs e' ∧ e'.decode body contentType = (e', .ok ())) ∧
      ∀ e' p, e.decode body contentType = (e', .error p) →
        ∃ before bad after, pairs = before ++ bad :: after ∧
          (∀ pair ∈ before, ∀ p, ¬pair.Offends e.schema p) ∧ bad.Offends e.schema p ∧
          e.assign before = (e', .ok ()) ∧ e.Overrides before e' := by
  refine ⟨fun p hp => by simp only [decode, hformat, hp], fun pairs hpairs => ?_⟩
  have hdecode (e : Entity) : e.decode body contentType = e.assign pairs := by
    simp only [decode, hformat, hpairs]
  simp only [hdecode]
  refine ⟨Body.exists_ordered hpairs, (assign_filter e pairs).symm,
    ⟨fun h => h.elim fun _ => forall_not_offends_of_assign, exists_assign_of_not_offends⟩,
    fun e' h => ⟨overrides_assign hlength h, assign_assign hlength h⟩, fun e' p h => ?_⟩
  obtain ⟨before, bad, after, hsplit, hgood, hbad, hassign⟩ := exists_offends_of_assign h
  exact ⟨before, bad, after, hsplit, hgood, hbad, hassign, overrides_assign hlength hassign⟩

/-- Of two notes in a form the last one stays. A level that is no number ends the decoding, and the
note before it has been assigned. -/
theorem decode_overrides_readings :
    let e := zeroed readings
    let form := "application/x-www-form-urlencoded"
    let good : List BodyPair :=
      [("note", some (.text "dry")), ("wind", some (.text "no")), ("note", some (.text "wet"))]
    let bad : List BodyPair :=
      [("note", some (.text "dry")), ("level", some (.text "high")), ("level", some (.text "1"))]
    (∃ e', e.decode (Text.toUtf8 "note=dry&wind=no&note=wet") form = (e', .ok ()) ∧
      e.Overrides good e') ∧
    ∃ e' p before pair after,
      e.decode (Text.toUtf8 "note=dry&level=high&level=1") form = (e', .error p) ∧
      bad = before ++ pair :: after ∧ pair.Offends readings p ∧ e.Overrides before e' := by
  intro e form good bad
  have hlength : e.values.length = e.schema.fields.length := rfl
  have hformat : MediaFormat.detect form = .ok .form := by decide +kernel
  have hgood : Body.pairs .form (Text.toUtf8 "note=dry&wind=no&note=wet") = .ok good := by
    decide +kernel
  have hbad : Body.pairs .form (Text.toUtf8 "note=dry&level=high&level=1") = .ok bad := by
    decide +kernel
  obtain ⟨-, hgood, -, hoverrides, -⟩ := (decode_overrides hlength hformat).2 _ hgood
  obtain ⟨-, hbad, -, -, hstops⟩ := (decode_overrides hlength hformat).2 _ hbad
  constructor
  · have hassign : (e.assign good).2 = .ok () := by decide +kernel
    have hdecode := (hgood.trans (assign_filter e good)).trans (Prod.ext rfl hassign)
    exact ⟨_, hdecode, (hoverrides _ hdecode).1⟩
  · have hassign : (e.assign bad).2 =
        .error (.undecodableField "level" ⟨.real, .text "high"⟩) := by
      decide +kernel
    have hdecode := (hbad.trans (assign_filter e bad)).trans (Prod.ext rfl hassign)
    obtain ⟨before, pair, after, hsplit, -, hoffends, -, hbefore⟩ := hstops _ _ hdecode
    exact ⟨_, _, before, pair, after, hdecode, hsplit, hoffends, hbefore⟩

end Entity

end ResourceEngine
