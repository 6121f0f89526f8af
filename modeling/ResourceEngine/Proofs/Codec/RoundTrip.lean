import ResourceEngine.Codec.Answer
import ResourceEngine.Proofs.Cbor.Documents
import ResourceEngine.Proofs.Json.Documents

/-!
# Decoding what was encoded

An entity that is encoded and decoded again, onto any entity of its schema, gives back its values.
The relations that it carries stand among its fields in the body, and are passed over: no relation
has the name of a field.
-/

namespace ResourceEngine

/-- The value may stand in the field: null where that is allowed, and otherwise of its kind. -/
def Field.Holds (f : Field) (v : Value) : Prop :=
  v = .null ∧ f.nullable = true ∨ f.kind.admits v = true

/-- An entity of the schema, with a value in each field, and relations of the schema that are loaded
one level deep. -/
structure Entity.IsOf (s : Schema) (e : Entity) : Prop where
  schema : e.schema = s
  values : List.Forall₂ Field.Holds s.fields e.values
  named : ∀ entry ∈ e.relations, entry.1 ∈ s.relations.map (·.name)
  flat : ∀ entry ∈ e.relations, ∀ r ∈ entry.2.entities, r.relations = []

/-! ### Bodies -/

namespace Body

theorem mem_of_mem_keepLast {α : Type} {entries : List (String × α)} {entry : String × α}
    (h : entry ∈ keepLast entries) : entry ∈ entries := by
  fun_induction keepLast entries with
  | case1 | case2 => exact h
  | case3 e e' rest heq ih => exact List.mem_cons_of_mem _ (ih h)
  | case4 e e' rest hne ih =>
    rcases List.mem_cons.1 h with rfl | h
    · exact List.mem_cons_self
    · exact List.mem_cons_of_mem _ (ih h)

theorem mem_of_mem_byKey {α : Type} {entries : List (String × α)} {entry : String × α}
    (h : entry ∈ byKey entries) : entry ∈ entries :=
  List.mem_mergeSort.1 (mem_of_mem_keepLast h)

/-- What is assigned has been written. -/
theorem exists_pairs_of_written? {format : MediaFormat} {body : List UInt8} {written : List BodyPair}
    (h : written? format body = some written) :
    ∃ assigned, pairs format body = .ok assigned ∧ ∀ pair ∈ assigned, pair ∈ written := by
  cases format with
  | json =>
    simp only [written?] at h
    split at h
    · next entries hentries =>
      cases h
      refine ⟨(byKey entries).map fun e => (e.1, e.2.value?),
        by simp only [pairs, jsonPairs, hentries], fun pair hpair => ?_⟩
      obtain ⟨entry, hentry, rfl⟩ := List.mem_map.1 hpair
      exact List.mem_map_of_mem (mem_of_mem_byKey hentry)
    · cases h
  | form =>
    cases h
    exact ⟨_, rfl, fun _ => id⟩
  | cbor =>
    simp only [written?] at h
    split_ifs at h with hlength
    obtain ⟨entries, hentries, rfl⟩ := Option.map_eq_some_iff.1 h
    refine ⟨(byKey entries).map fun e => (e.1, e.2.value?),
      by simp only [pairs, cborPairs, if_neg hlength, hentries], fun pair hpair => ?_⟩
    obtain ⟨entry, hentry, rfl⟩ := List.mem_map.1 hpair
    exact List.mem_map_of_mem (mem_of_mem_byKey hentry)

end Body

/-- The last value under a name that is written once. -/
theorem lastFor_of_mem {α : Type} {name : String} {v : α} {entries : List (String × α)}
    (h : (name, v) ∈ entries) (honly : ∀ w, (name, w) ∈ entries → w = v) :
    lastFor name entries = some v := by
  have hne : entries.filter (·.1 == name) ≠ [] :=
    List.ne_nil_of_mem (List.mem_filter.2 ⟨h, beq_self_eq_true name⟩)
  obtain ⟨hlast, hname⟩ := List.mem_filter.1 (List.getLast_mem hne)
  rw [lastFor, List.getLast?_eq_some_getLast hne, Option.map_some]
  generalize (entries.filter (·.1 == name)).getLast hne = entry at hlast hname
  obtain ⟨key, w⟩ := entry
  obtain rfl : key = name := beq_iff_eq.1 hname
  exact congrArg some (honly w hlast)

namespace Entity

/-- Where each pair that names a field is accepted, all of them are assigned. -/
theorem exists_assign {e : Entity} {pairs : List BodyPair}
    (h : ∀ pair ∈ pairs, ∀ f, e.schema.field? pair.1 = some f → ∃ w, accept f pair.2 = .ok w) :
    ∃ e', e.assign pairs = (e', .ok ()) := by
  fun_induction assign e pairs with
  | case1 e => exact ⟨e, rfl⟩
  | case2 e name v rest j f hfield hindex w hw ih =>
    exact ih fun pair hpair => h pair (List.mem_cons_of_mem _ hpair)
  | case3 e name v rest j f hfield hindex p hp =>
    obtain ⟨w, hw⟩ := h _ List.mem_cons_self f hfield
    rw [hw] at hp
    cases hp
  | case4 e name v rest hunknown ih => exact ih fun pair hpair => h pair (List.mem_cons_of_mem _ hpair)

end Entity

/-! ### What is written of an entity -/

/-- Under the name of each field stands its value, and nothing else. -/
def Body.Writes (s : Schema) (values : List Value) (written : List BodyPair) : Prop :=
  ∀ (i : Nat) (f : Field) (v : Option Value), s.fields[i]? = some f →
    ((f.name, v) ∈ written ↔ ∃ w, v = some w ∧ values[i]? = some w)

section Written

variable {s : Schema} {e : Entity} {format : MediaFormat} {written : List BodyPair}

/-- The pairs of the fields are their names with the values, if all of these are kept. -/
theorem eq_of_forall₂_ofFields {vs : List Value} {pairs : List BodyPair}
    (h : List.Forall₂ (Document.Keeps format) (Document.ofFields s vs) pairs)
    (hkept : ∀ v ∈ vs, format.keeps v = true) :
    pairs = (s.fields.zip vs).map fun (f, v) => (f.name, some v) := by
  unfold Document.ofFields at h
  have hmem : ∀ fv ∈ s.fields.zip vs, format.keeps fv.2 = true := fun fv hfv =>
    hkept fv.2 (List.of_mem_zip hfv).2
  generalize s.fields.zip vs = fields at h hmem
  induction fields generalizing pairs with
  | nil =>
    cases h
    rfl
  | cons fv fields ih =>
    rw [List.map_cons, List.forall₂_cons_left_iff] at h
    obtain ⟨pair, rest, ⟨hname, hvalue⟩, hrest, rfl⟩ := h
    rw [List.forall_mem_cons] at hmem
    rw [List.map_cons, ← ih hrest hmem.2]
    congr 1
    exact Prod.ext hname.symm (hvalue fv.2 rfl hmem.1)

/-- The entries of relations are written under names of relations. -/
theorem mem_relations_of_mem {relations : List (String × Related)} {pairs : List BodyPair}
    (h : List.Forall₂ (Document.Keeps format) (Document.ofRelations relations) pairs)
    {pair : BodyPair} (hpair : pair ∈ pairs) : pair.1 ∈ relations.map (·.1) := by
  rw [Document.ofRelations_eq_map, List.forall₂_map_left_iff] at h
  induction h with
  | nil => cases hpair
  | cons hkeeps _ ih =>
    rcases List.mem_cons.1 hpair with rfl | hpair
    · rw [← hkeeps.1]
      exact List.mem_cons_self
    · exact List.mem_cons_of_mem _ (ih hpair)

/-- The body of an entity writes its values. -/
theorem writes_of_forall₂ (hs : s.check = .ok ()) (he : e.IsOf s)
    (h : List.Forall₂ (Document.Keeps format)
      (Document.ofFields s e.values ++ Document.ofRelations e.relations) written)
    (hkept : ∀ v ∈ e.values, format.keeps v = true) : Body.Writes s e.values written := by
  intro i f v hf
  have hcolumn : s.columns[i]? = some f.name := by rw [Schema.getElem?_columns, hf, Option.map_some]
  have hindex := Schema.fieldIndex?_of_nodup (Schema.nodup_columns_of_check hs) hcolumn
  have hfields := List.forall₂_take (Document.ofFields s e.values).length h
  have hrelations := List.forall₂_drop (Document.ofFields s e.values).length h
  rw [List.take_left] at hfields
  rw [List.drop_left] at hrelations
  -- The pairs of the relations follow those of the fields, and none of them has the name.
  have hmine : (f.name, v) ∈ written ↔
      (f.name, v) ∈ (s.fields.zip e.values).map fun (f, v) => (f.name, some v) := by
    rw [← eq_of_forall₂_ofFields hfields hkept]
    refine ⟨fun hmem => ?_, List.mem_of_mem_take⟩
    rw [← List.take_append_drop (Document.ofFields s e.values).length written] at hmem
    refine (List.mem_append.1 hmem).resolve_right fun hrelation => ?_
    obtain ⟨entry, hentry, hname⟩ := List.mem_map.1 (mem_relations_of_mem hrelations hrelation)
    have hunlike := Schema.not_mem_columns_of_check hs (he.named entry hentry)
    rw [hname] at hunlike
    exact hunlike (List.mem_of_getElem? hcolumn)
  rw [hmine]
  constructor
  · intro hmem
    obtain ⟨⟨f', w⟩, hzip, heq⟩ := List.mem_map.1 hmem
    obtain ⟨hname, rfl⟩ := Prod.mk.inj heq
    obtain ⟨j, hj⟩ := List.mem_iff_getElem?.1 hzip
    obtain ⟨hf', hw⟩ := List.getElem?_zip_eq_some.1 hj
    have hcolumn' : s.columns[j]? = some f.name := by
      rw [Schema.getElem?_columns, hf', Option.map_some, hname]
    have hindex' := Schema.fieldIndex?_of_nodup (Schema.nodup_columns_of_check hs) hcolumn'
    obtain rfl : i = j := Option.some.inj (hindex.symm.trans hindex')
    exact ⟨w, rfl, hw⟩
  · rintro ⟨w, rfl, hw⟩
    exact List.mem_map.2 ⟨(f, w), List.mem_iff_getElem?.2 ⟨i, List.getElem?_zip_eq_some.2 ⟨hf, hw⟩⟩, rfl⟩

end Written

/-! ### Decoding -/

theorem Field.coerce_of_holds {f : Field} {v : Value} (h : f.Holds v) : f.kind.coerce v = .ok v := by
  rcases h with ⟨rfl, -⟩ | h
  · rfl
  · exact Kind.coerce_of_admits h

/-- A field accepts what it may hold. -/
theorem Field.accept_of_holds {f : Field} {v : Value} (h : f.Holds v) :
    Entity.accept f (some v) = .ok v := by
  cases v with
  | null =>
    rcases h with ⟨-, hnullable⟩ | h
    · rw [Entity.accept, if_pos hnullable]
    · cases Kind.isNull_of_admits h
  | _ =>
    rw [Entity.accept, Field.coerce_of_holds h]
    exact nofun

section Writes

variable {s : Schema} {values : List Value} {written : List BodyPair}
  (hvalues : List.Forall₂ Field.Holds s.fields values) (hwrites : Body.Writes s values written)

include hvalues

theorem Field.holds_of_getElem? {i : Nat} {f : Field} {w : Value} (hf : s.fields[i]? = some f)
    (hw : values[i]? = some w) : f.Holds w := by
  obtain ⟨hi, rfl⟩ := List.getElem?_eq_some_iff.1 hf
  obtain ⟨hi', rfl⟩ := List.getElem?_eq_some_iff.1 hw
  exact (List.forall₂_iff_get.1 hvalues).2 i hi hi'

include hwrites

/-- What is written for a field is accepted. -/
theorem Body.Writes.exists_accept {pair : BodyPair} (hpair : pair ∈ written) {f : Field}
    (hfield : s.field? pair.1 = some f) : ∃ w, Entity.accept f pair.2 = .ok w := by
  obtain ⟨name, v⟩ := pair
  rw [Schema.field?_eq] at hfield
  obtain ⟨i, hi, hf⟩ := Option.bind_eq_some_iff.1 hfield
  have hname : f.name = name := by
    have hcolumn := Schema.getElem?_of_fieldIndex? hi
    rwa [Schema.getElem?_columns, hf, Option.map_some, Option.some.injEq] at hcolumn
  subst hname
  obtain ⟨w, rfl, hw⟩ := (hwrites i f v hf).1 hpair
  exact ⟨w, Field.accept_of_holds (Field.holds_of_getElem? hvalues hf hw)⟩

/-- A field takes the value that is written for it, since it is written once. -/
theorem Body.Writes.taken? {i : Nat} {f : Field} {w : Value} (hf : s.fields[i]? = some f)
    (hw : values[i]? = some w) (held : Option Value) : f.taken? written held = some w := by
  have hlast : lastFor f.name written = some (some w) := by
    refine lastFor_of_mem ((hwrites i f _ hf).2 ⟨w, rfl, hw⟩) fun v hv => ?_
    obtain ⟨w', rfl, hw'⟩ := (hwrites i f v hf).1 hv
    rw [← hw', hw]
  rw [Field.taken?, hlast]
  simp only [Option.bind_some, Field.coerce_of_holds (Field.holds_of_getElem? hvalues hf hw)]
  rfl

/-- A body that writes the values of an entity gives them back. -/
theorem Entity.decode_of_written? {target : Entity} {body : List UInt8} {contentType : String}
    {format : MediaFormat} (hs : s.check = .ok ()) (hschema : target.schema = s)
    (hlength : target.values.length = s.fields.length)
    (hformat : MediaFormat.detect contentType = .ok format)
    (hwritten : Body.written? format body = some written) :
    target.decode body contentType = (.mk s values target.relations, .ok ()) := by
  subst hschema
  -- Nothing that is assigned is refused, so that the decoding comes to its end.
  obtain ⟨assigned, hassigned, hsubset⟩ := Body.exists_pairs_of_written? hwritten
  obtain ⟨e', he'⟩ := exists_assign fun pair hpair f hfield =>
    hwrites.exists_accept hvalues (hsubset pair hpair) hfield
  have hdecode : target.decode body contentType = (e', .ok ()) := by
    simp only [decode, hformat, hassigned, he']
  obtain ⟨written', hwritten', hschema', hrelations', hlength', htaken⟩ :=
    exists_written?_of_decode hformat hdecode
  obtain rfl : written = written' := Option.some.inj (hwritten.symm.trans hwritten')
  have hvalues' : e'.values = values := by
    refine List.ext_getElem? fun i => ?_
    by_cases hi : i < target.schema.fields.length
    · have hf := List.getElem?_eq_getElem hi
      have hw := List.getElem?_eq_getElem (hvalues.length_eq ▸ hi)
      rw [hw, ← hwrites.taken? hvalues hf hw (target.getAt? i)]
      exact htaken (Schema.nodup_columns_of_check hs) i _ hf (by rwa [hlength])
    · rw [List.getElem?_eq_none (by omega), List.getElem?_eq_none (hvalues.length_eq ▸ not_lt.1 hi)]
  rw [hdecode]
  obtain ⟨schema, held, relations⟩ := e'
  cases hschema'
  cases hvalues'
  cases hrelations'
  rfl

end Writes

/-! ### The round trip -/

theorem MediaFormat.detect_of_ofAccept {accept : String} {format : MediaFormat}
    (h : MediaFormat.ofAccept accept = .ok format) : MediaFormat.detect accept = .ok format := by
  unfold ofAccept at h
  split at h
  · next hdetect =>
    cases h
    exact hdetect
  · next hdetect =>
    cases h
    exact hdetect
  · cases h

/-- Both content types name their format, and that of CBOR no other. They are searched together,
because the table of cases is what takes the time. -/
theorem MediaFormat.occursIn_types :
    json.occursIn Encoded.jsonType.toList = true ∧ json.occursIn Encoded.cborType.toList = false ∧
      form.occursIn Encoded.cborType.toList = false ∧
      cbor.occursIn Encoded.cborType.toList = true := by
  decide +kernel

theorem MediaFormat.detect_jsonType : MediaFormat.detect Encoded.jsonType = .ok .json := by
  simp [detect, occursIn_types]

theorem MediaFormat.detect_cborType : MediaFormat.detect Encoded.cborType = .ok .cbor := by
  simp [detect, occursIn_types]

theorem MediaFormat.ofAccept_ne_form (accept : String) : MediaFormat.ofAccept accept ≠ .ok .form := by
  unfold ofAccept
  split <;> exact nofun

/-- The body of an encoded entity is read back, with every value that is kept. -/
theorem Output.exists_encode {e : Entity} {accept : String} {format : MediaFormat}
    (haccept : MediaFormat.ofAccept accept = .ok format)
    (hflat : ∀ entry ∈ e.relations, ∀ r ∈ entry.2.entities, r.relations = []) :
    ∃ answer, (Output.entity e).encode accept = .ok answer ∧
      MediaFormat.detect answer.contentType = .ok format ∧
      ((format = .cbor → answer.body.length ≤ Body.cborLimit) →
        ∃ written, Body.written? format answer.body = some written ∧
          List.Forall₂ (Document.Keeps format)
            (Document.ofFields e.schema e.values ++ Document.ofRelations e.relations) written) := by
  have hdepth := Document.depth_ofEntity hflat
  rw [Document.ofEntity_eq] at hdepth
  cases format with
  | json =>
    refine ⟨⟨Encoded.jsonType, Text.toUtf8 (Json.write (.ofEntity e))⟩, ?_,
      MediaFormat.detect_jsonType, fun _ => ?_⟩
    · rw [encode, haccept]
      rfl
    · rw [Document.ofEntity_eq]
      exact Json.exists_written?_write (hdepth.trans (by decide))
  | form => exact absurd haccept (MediaFormat.ofAccept_ne_form accept)
  | cbor =>
    refine ⟨⟨Encoded.cborType, Cbor.write (.ofEntity e)⟩, ?_, MediaFormat.detect_cborType,
      fun hsize => ?_⟩
    · rw [encode, haccept]
      rfl
    · have hsize := hsize rfl
      rw [Document.ofEntity_eq] at hsize ⊢
      exact Cbor.exists_written?_write (hdepth.trans (by decide)) hsize

/-- Encoding an entity and decoding it again, in the same format and onto any entity of its schema,
gives its values back and leaves the relations of that entity as they are. -/
theorem Entity.decode_encode {s : Schema} {e target : Entity} {accept : String}
    {format : MediaFormat} (hs : s.check = .ok ()) (he : e.IsOf s) (hschema : target.schema = s)
    (hlength : target.values.length = s.fields.length)
    (haccept : MediaFormat.ofAccept accept = .ok format)
    (hkept : ∀ v ∈ e.values, format.keeps v = true) :
    ∃ answer, (Output.entity e).encode accept = .ok answer ∧
      MediaFormat.detect answer.contentType = .ok format ∧
      MediaFormat.detect accept = .ok format ∧
      ((format = .cbor → answer.body.length ≤ Body.cborLimit) →
        ∀ contentType, MediaFormat.detect contentType = .ok format →
          target.decode answer.body contentType = (.mk s e.values target.relations, .ok ())) := by
  obtain ⟨answer, hencode, hdeclared, hread⟩ := Output.exists_encode haccept he.flat
  refine ⟨answer, hencode, hdeclared, MediaFormat.detect_of_ofAccept haccept,
    fun hsize contentType hformat => ?_⟩
  obtain ⟨written, hwritten, hkeeps⟩ := hread hsize
  rw [he.schema] at hkeeps
  exact decode_of_written? he.values (writes_of_forall₂ hs he hkeeps hkept) hs hschema hlength hformat
    hwritten

/-- Readings of an instrument, each with the ones that correct it. -/
def readings : Schema where
  table := "readings"
  fields :=
    [⟨"id", .integer, false, true, true⟩, ⟨"level", .real, true, false, false⟩,
      ⟨"note", .text, false, false, false⟩, ⟨"raw", .blob, false, false, false⟩,
      ⟨"valid", .bool, false, false, false⟩]
  relations := [⟨"corrections", "readings", .hasMany "id"⟩]

/-- A reading that is corrected twice: by one whose level is no number, and by one with a level of
`-1.5`. -/
def reading (level : Value) : Entity :=
  .mk readings [.integer (-7), level, .text "raté", .blob [0, 255], .bool true]
    [("corrections",
      .many
        [.mk readings [.integer 8, .real .nan, .text "", .blob [], .bool false] [],
          .mk readings [.integer 9, .real (.ofDecimal true 15 (-1)), .text "\"", .blob [], .null] []])]

theorem isOf_reading {level : Value} (h : level = .null ∨ Kind.real.admits level = true) :
    (reading level).IsOf readings where
  schema := rfl
  values := by
    refine .cons (.inr rfl) (.cons ?_ (.cons (.inr rfl) (.cons (.inr rfl) (.cons (.inr rfl) .nil))))
    exact h.imp_left fun hnull => ⟨hnull, rfl⟩
  named entry hentry := by
    obtain rfl := List.mem_singleton.1 hentry
    exact List.mem_singleton_self _
  flat entry hentry r hr := by
    obtain rfl := List.mem_singleton.1 hentry
    rcases List.mem_pair.1 hr with rfl | rfl <;> rfl

theorem MediaFormat.ofAccept_types : MediaFormat.ofAccept Encoded.jsonType = .ok .json ∧
    MediaFormat.ofAccept Encoded.cborType = .ok .cbor := by
  simp [ofAccept, detect_jsonType, detect_cborType]

/-- A reading without a level goes through JSON, and one with a level through CBOR. -/
theorem Entity.decode_encode_readings :
    (∃ answer, (Output.entity (reading .null)).encode Encoded.jsonType = .ok answer ∧
      (zeroed readings).decode answer.body answer.contentType =
        (.mk readings (reading .null).values [], .ok ())) ∧
    ∃ answer,
      (Output.entity (reading (.real (.ofDecimal false 1 (-1))))).encode Encoded.cborType = .ok answer ∧
      (zeroed readings).decode answer.body answer.contentType =
        (.mk readings (reading (.real (.ofDecimal false 1 (-1)))).values [], .ok ()) := by
  have hzeroed : (zeroed readings).schema = readings := rfl
  constructor
  · obtain ⟨answer, hencode, hdeclared, -, hdecode⟩ := decode_encode (e := reading .null) rfl
      (isOf_reading (.inl rfl)) hzeroed rfl MediaFormat.ofAccept_types.1 (by decide)
    exact ⟨answer, hencode, hdecode nofun _ hdeclared⟩
  · obtain ⟨answer, hencode, hdeclared, -, hdecode⟩ :=
      decode_encode (e := reading (.real (.ofDecimal false 1 (-1)))) rfl
        (isOf_reading (.inr rfl)) hzeroed rfl MediaFormat.ofAccept_types.2 (by decide +kernel)
    refine ⟨answer, hencode, hdecode (fun _ => ?_) _ hdeclared⟩
    rw [Output.encode, MediaFormat.ofAccept_types.2] at hencode
    cases hencode
    decide +kernel

end ResourceEngine
