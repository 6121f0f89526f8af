import Mathlib.Data.List.Nodup
import Mathlib.Data.String.Basic
import ResourceEngine.Codec.Body
import ResourceEngine.Proofs.Engine.Decoding
import ResourceEngine.Proofs.Schema.Consistency

/-!
# What a body assigns

Where the names of a body are sorted and repeated ones dropped, the last value that is written for a
name stays. So a decoded entity holds, in each field, the last value that the body writes for its
name, converted to the kind of the field, and what it held before in the fields that the body does
not name.
-/

namespace ResourceEngine

/-- The last value under a name. -/
def lastFor {α : Type} (name : String) (entries : List (String × α)) : Option α :=
  (entries.filter (·.1 == name)).getLast?.map (·.2)

/-- The value that a field takes from the pairs of a body: the last one for its name, converted, and
the one it has if there is none. -/
def Field.taken? (f : Field) (pairs : List BodyPair) (held : Option Value) : Option Value :=
  match lastFor f.name pairs with
  | none => held
  | some v => v.bind fun v => (f.kind.coerce v).toOption

section Entries

variable {α β : Type} {name : String}

theorem lastFor_cons_of_ne {e : String × α} (h : e.1 ≠ name) (entries : List (String × α)) :
    lastFor name (e :: entries) = lastFor name entries := by
  rw [lastFor, List.filter_cons_of_neg (by simpa using h)]
  rfl

theorem lastFor_cons_self (v : α) (entries : List (String × α)) :
    lastFor name ((name, v) :: entries) = some ((lastFor name entries).getD v) := by
  rw [lastFor, List.filter_cons_of_pos (by simp), List.getLast?_cons, Option.map_some, lastFor]
  cases (entries.filter (·.1 == name)).getLast? <;> rfl

theorem lastFor_map (g : α → β) (entries : List (String × α)) :
    lastFor name (entries.map fun e => (e.1, g e.2)) = (lastFor name entries).map g := by
  unfold lastFor
  rw [List.filter_map, List.getLast?_map, Option.map_map, Option.map_map]
  rfl

theorem mem_of_lastFor {v : α} {entries : List (String × α)} (h : lastFor name entries = some v) :
    (name, v) ∈ entries := by
  obtain ⟨entry, hentry, rfl⟩ := Option.map_eq_some_iff.1 h
  obtain ⟨hmem, hname⟩ := List.mem_filter.1 (List.mem_of_getLast? hentry)
  obtain rfl := beq_iff_eq.1 hname
  exact hmem

theorem exists_lastFor_of_mem {entries : List (String × α)} {entry : String × α}
    (h : entry ∈ entries) : ∃ v, lastFor entry.1 entries = some v := by
  have hne : entries.filter (·.1 == entry.1) ≠ [] :=
    List.ne_nil_of_mem (List.mem_filter.2 ⟨h, beq_self_eq_true entry.1⟩)
  exact ⟨_, by rw [lastFor, List.getLast?_eq_some_getLast hne, Option.map_some]⟩

theorem lastFor_keepLast (entries : List (String × α)) :
    lastFor name (Body.keepLast entries) = lastFor name entries := by
  fun_induction Body.keepLast entries with
  | case1 | case2 => rfl
  | case3 e e' rest heq ih =>
    obtain ⟨key, v⟩ := e
    obtain ⟨key', v'⟩ := e'
    obtain rfl : key = key' := heq
    by_cases hname : key = name
    · subst hname
      rw [ih, lastFor_cons_self v, lastFor_cons_self v', Option.getD_some]
    · rw [ih, lastFor_cons_of_ne hname ((key, v') :: rest)]
  | case4 e e' rest hne ih =>
    obtain ⟨key, v⟩ := e
    by_cases hname : key = name
    · subst hname
      rw [lastFor_cons_self, lastFor_cons_self, ih]
    · rw [lastFor_cons_of_ne hname, lastFor_cons_of_ne hname, ih]

theorem le_key_trans (a b c : String × α) (hab : decide (a.1 ≤ b.1) = true)
    (hbc : decide (b.1 ≤ c.1) = true) : decide (a.1 ≤ c.1) = true := by
  simp only [decide_eq_true_eq] at hab hbc ⊢
  exact le_trans hab hbc

theorem le_key_total (a b : String × α) : (decide (a.1 ≤ b.1) || decide (b.1 ≤ a.1)) = true := by
  simpa using le_total a.1 b.1

/-- Sorting by name leaves the entries of one name in their order. -/
theorem filter_mergeSort (entries : List (String × α)) :
    (entries.mergeSort fun a b => decide (a.1 ≤ b.1)).filter (·.1 == name) =
      entries.filter (·.1 == name) := by
  have hsorted : (entries.filter (·.1 == name)).Pairwise fun a b => decide (a.1 ≤ b.1) = true := by
    refine List.pairwise_filter.2 (List.pairwise_of_forall fun a b ha hb => ?_)
    rw [beq_iff_eq] at ha hb
    simp [ha, hb]
  have hsublist : List.Sublist (entries.filter (·.1 == name))
      (entries.mergeSort fun a b => decide (a.1 ≤ b.1)) :=
    List.sublist_mergeSort le_key_trans le_key_total hsorted List.filter_sublist
  have hfilter := hsublist.filter (·.1 == name)
  simp only [List.filter_filter, Bool.and_self] at hfilter
  have hlength := ((List.mergeSort_perm entries fun a b => decide (a.1 ≤ b.1)).filter
    (·.1 == name)).length_eq
  exact (hfilter.eq_of_length hlength.symm).symm

theorem lastFor_byKey (entries : List (String × α)) :
    lastFor name (Body.byKey entries) = lastFor name entries := by
  rw [Body.byKey, lastFor_keepLast, lastFor, filter_mergeSort, lastFor]

end Entries

namespace Body

/-- The pairs of a body as it is written. -/
def written? (format : MediaFormat) (body : List UInt8) : Option (List BodyPair) :=
  match format with
  | .json =>
    match (Text.ofUtf8? body).bind Json.ofText? with
    | some (.object entries) => some (entries.map fun (k, j) => (k, j.value?))
    | _ => none
  | .form => some (formPairs body)
  | .cbor =>
    if cborLimit < body.length then none
    else (Cbor.entries? body).map fun entries => entries.map fun (k, c) => (k, c.value?)

/-- The pairs that are assigned have the last values of those that are written. -/
theorem exists_written?_of_pairs {format : MediaFormat} {body : List UInt8} {assigned : List BodyPair}
    (h : pairs format body = .ok assigned) :
    ∃ written, written? format body = some written ∧
      ∀ name, lastFor name assigned = lastFor name written := by
  cases format with
  | json =>
    simp only [pairs, jsonPairs] at h
    split at h
    · next entries hentries =>
      cases h
      refine ⟨entries.map fun e => (e.1, e.2.value?), by simp only [written?, hentries],
        fun name => ?_⟩
      rw [lastFor_map, lastFor_byKey, lastFor_map]
    · cases h
  | form =>
    cases h
    exact ⟨_, rfl, fun name => rfl⟩
  | cbor =>
    simp only [pairs, cborPairs] at h
    split_ifs at h with hlength
    split at h
    · next entries hentries =>
      cases h
      refine ⟨entries.map fun e => (e.1, e.2.value?), ?_, fun name => ?_⟩
      · simp only [written?, if_neg hlength, hentries, Option.map_some]
      rw [lastFor_map, lastFor_byKey, lastFor_map]
    · cases h

end Body

namespace Entity

variable {e e' : Entity} {pairs : List BodyPair} {f : Field} {i : Nat}

theorem coerce_of_accept {v : Option Value} {w : Value} (h : accept f v = .ok w) :
    (v.bind fun v => (f.kind.coerce v).toOption) = some w := by
  unfold accept at h
  split at h
  · cases h
  · split_ifs at h
    cases h
    rfl
  · next v hv =>
    split at h
    · next u hu =>
      cases h
      rw [Option.bind_some, hu]
      rfl
    · cases h

theorem frame_assign (h : e.assign pairs = (e', .ok ())) :
    e'.schema = e.schema ∧ e'.relations = e.relations ∧ e'.values.length = e.values.length := by
  fun_induction assign e pairs with
  | case1 e =>
    cases h
    exact ⟨rfl, rfl, rfl⟩
  | case2 e name v rest j f' hindex hfield w hw ih =>
    obtain ⟨hschema, hrelations, hlength⟩ := ih h
    exact ⟨hschema, hrelations, hlength.trans (length_values_setAt e j w)⟩
  | case3 => cases h
  | case4 e name v rest hunknown ih => exact ih h

/-- The field under a name takes what the pairs say for the name. -/
theorem getAt?_assign_of_fieldIndex? (hname : e.schema.fieldIndex? f.name = some i)
    (hf : e.schema.fields[i]? = some f) (hi : i < e.values.length)
    (h : e.assign pairs = (e', .ok ())) : e'.getAt? i = f.taken? pairs (e.getAt? i) := by
  have hfield : e.schema.field? f.name = some f := by
    rw [Schema.field?_eq, hname]
    exact hf
  fun_induction assign e pairs with
  | case1 e =>
    cases h
    rfl
  | case2 e name v rest j f' hnamed hindex w hw ih =>
    have hrest := ih hname hf (by rwa [length_values_setAt]) h hfield
    -- A later pair of the same name has the last word; a pair of another name leaves the field
    -- alone.
    by_cases hsame : name = f.name
    · subst hsame
      obtain rfl : j = i := Option.some.inj (hindex.symm.trans hname)
      obtain rfl : f' = f := Option.some.inj (hnamed.symm.trans hfield)
      rw [hrest, getAt?_setAt hi, Field.taken?, Field.taken?, lastFor_cons_self]
      cases hlast : lastFor f'.name rest with
      | none => exact (coerce_of_accept hw).symm
      | some u => rfl
    · have hij : j ≠ i := by
        rintro rfl
        have hcolumn := Schema.getElem?_of_fieldIndex? hname
        rw [Schema.getElem?_of_fieldIndex? hindex, Option.some.injEq] at hcolumn
        exact hsame hcolumn
      rw [hrest, getAt?_setAt_of_ne hij, Field.taken?, Field.taken?, lastFor_cons_of_ne hsame]
  | case3 => cases h
  | case4 e name v rest hunknown ih =>
    have hne : name ≠ f.name := by
      rintro rfl
      exact hunknown i f hname hfield
    rw [ih hname hf hi h hfield, Field.taken?, Field.taken?, lastFor_cons_of_ne hne]

/-- Each field takes what the pairs say for its name. -/
theorem getAt?_assign (hnodup : e.schema.columns.Nodup) (hf : e.schema.fields[i]? = some f)
    (hi : i < e.values.length) (h : e.assign pairs = (e', .ok ())) :
    e'.getAt? i = f.taken? pairs (e.getAt? i) := by
  refine getAt?_assign_of_fieldIndex? (Schema.fieldIndex?_of_nodup hnodup ?_) hf hi h
  rw [Schema.getElem?_columns, hf, Option.map_some]

/-- What is decoded has a media type and pairs, and these are assigned. -/
theorem exists_assign_of_decode {body : List UInt8} {contentType : String}
    (h : e.decode body contentType = (e', .ok ())) :
    ∃ format pairs, MediaFormat.detect contentType = .ok format ∧
      Body.pairs format body = .ok pairs ∧ e.assign pairs = (e', .ok ()) := by
  unfold decode at h
  split at h
  · cases h
  next format hformat =>
  split at h
  · cases h
  next pairs hpairs => exact ⟨format, pairs, hformat, hpairs, h⟩

/-- What is decoded onto an entity: each field takes what the body writes for its name. -/
theorem exists_written?_of_decode {body : List UInt8} {contentType : String} {format : MediaFormat}
    (hformat : MediaFormat.detect contentType = .ok format)
    (h : e.decode body contentType = (e', .ok ())) :
    ∃ written, Body.written? format body = some written ∧
      e'.schema = e.schema ∧ e'.relations = e.relations ∧ e'.values.length = e.values.length ∧
      (e.schema.columns.Nodup → ∀ i f, e.schema.fields[i]? = some f → i < e.values.length →
        e'.getAt? i = f.taken? written (e.getAt? i)) := by
  obtain ⟨format', pairs, hformat', hpairs, hassign⟩ := exists_assign_of_decode h
  obtain rfl := Except.ok.inj (hformat.symm.trans hformat')
  obtain ⟨written, hwritten, hlast⟩ := Body.exists_written?_of_pairs hpairs
  obtain ⟨hschema, hrelations, hlength⟩ := frame_assign hassign
  refine ⟨written, hwritten, hschema, hrelations, hlength, fun hnodup i f hf hi => ?_⟩
  rw [getAt?_assign hnodup hf hi hassign, Field.taken?, Field.taken?, hlast]

end Entity

end ResourceEngine
