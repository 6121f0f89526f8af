import ResourceEngine.Filter.Wire
import ResourceEngine.Proofs.Filter.Acceptance
import ResourceEngine.Proofs.Json.Documents

/-!
# Reading filters back

A filter that is written is read back if every attribute has a name and no operator that compares is
given the null. What is read is the same tree, but for operands that the wire cannot tell apart: a
unary operator has none, and a blob is the list of its octets. A filter that comes from the wire has
no such operands, so that it is read back as it is.
-/

namespace ResourceEngine

namespace Filter

/-! ### What the wire makes of a filter -/

/-- The values of an operand. -/
def Operand.values : Operand → List Value
  | .scalar v => [v]
  | .list vs => vs

/-- An octet as a value of its own. -/
def octetValue (b : UInt8) : Value := .integer (Int64.ofInt b.toNat)

/-- The operand that is read where one is written. -/
def Operand.received : Operand → Operand
  | .scalar (.blob octets) => .list (octets.map octetValue)
  | operand => operand

mutual

/-- The filter with every operand changed by its operator. -/
def mapOperands (change : Op → Operand → Operand) : Filter → Filter
  | .group c children => .group c (mapOperandsAll change children)
  | .predicate attr op operand => .predicate attr op (change op operand)

def mapOperandsAll (change : Op → Operand → Operand) : List Filter → List Filter
  | [] => []
  | f :: fs => mapOperands change f :: mapOperandsAll change fs

end

/-- The filter with no operand but the null for a unary operator. -/
def bare (f : Filter) : Filter :=
  f.mapOperands fun op operand => if op.isUnary then .scalar .null else operand

/-- The filter that is read where one is written. -/
def received (f : Filter) : Filter :=
  f.mapOperands fun op operand => if op.isUnary then .scalar .null else operand.received

/-- The predicate has an attribute, and a value if its operator compares. -/
def Predicate.IsSendable (q : Predicate) : Prop :=
  q.attr ≠ "" ∧ (q.op.isUnary = true ∨ q.operand ≠ .scalar .null)

/-- The levels of arrays in a value. -/
def valueLevels : Value → Nat
  | .blob _ => 1
  | _ => 0

/-- The levels of arrays in an operand. -/
def Operand.levels : Operand → Nat
  | .scalar v => valueLevels v
  | .list vs => (vs.map valueLevels).foldr max 0 + 1

mutual

/-- The levels of objects and arrays in a written filter. -/
def levels : Filter → Nat
  | .group _ children => levelsAll children + 2
  | .predicate _ op operand => (if op.isUnary then 0 else operand.levels) + 1

def levelsAll : List Filter → Nat
  | [] => 0
  | f :: fs => max (levels f) (levelsAll fs)

end

/-! ### Drafts of documents -/

section

open Json

variable {n : Nat} {d : Draft} {drafts : List Draft} {j : Json} {js : List Json} {s : String}
  {entries : List (Option (List StringUnit) × Draft)} {members : List (String × Json)}

theorem optionalString?_of_string (h : ofDraft? n d = some (.string s)) :
    optionalString? d = some (some s) := by
  cases d with
  | string units => simpa [ofDraft?, optionalString?] using h
  | _ => simp [ofDraft?] at h

/-- A document that is an array is read from one, item by item. -/
theorem exists_array (h : ofDraft? (n + 1) d = some (.array js)) :
    ∃ drafts, d = .array drafts ∧ ¬n + 1 ≤ 1 ∧ ofDrafts? n drafts = some js := by
  cases d with
  | array drafts =>
    rw [ofDraft?] at h
    split at h
    next => cases h
    next hn => exact ⟨drafts, rfl, hn, by simpa using h⟩
  | _ => simp [ofDraft?] at h

/-- A document that is an object is read from one, member by member. -/
theorem exists_object (h : ofDraft? (n + 1) d = some (.object members)) :
    ∃ entries, d = .object entries ∧ ¬n + 1 ≤ 1 ∧ ofEntries? n entries = some members := by
  cases d with
  | object entries =>
    rw [ofDraft?] at h
    split at h
    next => cases h
    next hn => exact ⟨entries, rfl, hn, by simpa using h⟩
  | _ => simp [ofDraft?] at h

theorem exists_drafts_cons (h : ofDrafts? n drafts = some (j :: js)) :
    ∃ d rest, drafts = d :: rest ∧ ofDraft? n d = some j ∧ ofDrafts? n rest = some js := by
  cases drafts with
  | nil => simp [ofDrafts?] at h
  | cons d rest =>
    rw [ofDrafts?] at h
    split at h
    next => cases h
    next j' hj =>
      obtain ⟨js', hjs, heq⟩ := Option.map_eq_some_iff.1 h
      cases heq
      exact ⟨d, rest, rfl, hj, hjs⟩

theorem drafts_eq_nil (h : ofDrafts? n drafts = some []) : drafts = [] := by
  cases drafts with
  | nil => rfl
  | cons d rest =>
    rw [ofDrafts?] at h
    split at h <;> simp at h

theorem exists_entries_cons {name : String} (h : ofEntries? n entries = some ((name, j) :: members)) :
    ∃ key d rest, entries = (key, d) :: rest ∧ key.bind decodeString? = some name ∧
      ofDraft? n d = some j ∧ ofEntries? n rest = some members := by
  cases entries with
  | nil => simp [ofEntries?] at h
  | cons entry rest =>
    obtain ⟨key, d⟩ := entry
    rw [ofEntries?] at h
    split at h
    next => cases h
    next name' hname =>
      split at h
      next => cases h
      next j' hj =>
        obtain ⟨members', hmembers, heq⟩ := Option.map_eq_some_iff.1 h
        cases heq
        exact ⟨key, d, rest, rfl, hname, hj, hmembers⟩

theorem entries_eq_nil (h : ofEntries? n entries = some []) : entries = [] := by
  cases entries with
  | nil => rfl
  | cons entry rest =>
    obtain ⟨key, d⟩ := entry
    rw [ofEntries?] at h
    split at h
    next => cases h
    next => split at h <;> simp at h

/-! ### Operands -/

variable {operand : Operand}

/-- The operand has no real in it. -/
def Operand.IsExact (operand : Operand) : Prop := ∀ v ∈ operand.values, ∀ x, v ≠ .real x

/-- Every value but a real number can be written. -/
theorem exists_ofValue? {v : Value} (hv : ∀ x, v ≠ .real x) : ∃ j, ofValue? v = some j := by
  cases v with
  | real x => exact absurd rfl (hv x)
  | _ => exact ⟨_, rfl⟩

theorem value?_octetValue (b : UInt8) : (ofInteger b.toNat).value? = some (octetValue b) := by
  have hb := b.toNat_lt
  have hint : (Int64.ofInt b.toNat).toInt = b.toNat :=
    Int64.toInt_ofInt_of_le (by omega) (by omega)
  have hvalue := value?_ofInteger (Int64.ofInt b.toNat)
  rwa [hint] at hvalue

/-- Octets that are written as numbers are read as numbers. -/
theorem mapM_value?_octets (octets : List UInt8) :
    (octets.map fun b => ofInteger b.toNat).mapM value? = some (octets.map octetValue) := by
  induction octets with
  | nil => rfl
  | cons b octets ih => simp [List.mapM_cons, value?_octetValue, ih]

/-- A value that is neither null nor a blob is an operand as it is. -/
theorem ofJson?_scalar {v : Value} {j : Json} (hj : ofValue? v = some j) :
    Operand.ofJson? j =
      some (if v = .null then none else some (Operand.scalar v).received) := by
  cases v with
  | null =>
    cases hj
    rfl
  | integer i =>
    cases hj
    have hvalue := value?_ofInteger i
    unfold ofInteger at hvalue ⊢
    rw [Operand.ofJson?, hvalue]
    · rfl
    · nofun
    · nofun
  | real x => exact nomatch hj
  | text s =>
    cases hj
    rfl
  | blob octets =>
    cases hj
    rw [Operand.ofJson?, mapM_value?_octets]
    rfl
  | bool b =>
    cases hj
    rfl

/-- A value in a list is nested no deeper than the list says. -/
theorem valueLevels_le_of_mem {v : Value} {vs : List Value} (hv : v ∈ vs) :
    valueLevels v ≤ (vs.map valueLevels).foldr max 0 := by
  induction vs with
  | nil => exact nomatch hv
  | cons w vs ih =>
    rw [List.map_cons, List.foldr_cons]
    rcases List.mem_cons.1 hv with rfl | hv
    · exact Nat.le_max_left ..
    · exact Nat.le_trans (ih hv) (Nat.le_max_right ..)

/-- A list of values is read item by item. -/
theorem exists_reads_values {vs : List Value} (hvs : ∀ v ∈ vs, ∀ x, v ≠ .real x)
    (hlevels : ∀ v ∈ vs, valueLevels v < n) :
    ∃ js, List.Forall₂ (fun item j => Reads n item.toList j) (vs.map writeValue) js ∧
      js.mapM value? = some vs := by
  induction vs with
  | nil => exact ⟨[], .nil, rfl⟩
  | cons v vs ih =>
    rw [List.forall_mem_cons] at hvs hlevels
    obtain ⟨j, hj⟩ := exists_ofValue? hvs.1
    obtain ⟨js, hjs, hvalues⟩ := ih hvs.2 hlevels.2
    have hblob (octets : List UInt8) (hv : v = .blob octets) : 2 ≤ n := by
      rw [hv] at hlevels
      exact hlevels.1
    refine ⟨j :: js, .cons (reads_writeValue hj hblob) hjs, ?_⟩
    rw [List.mapM_cons, value?_of_ofValue? hj, hvalues]
    rfl

/-- What is read where an operand is written: none for the null. -/
theorem exists_reads_operand (hexact : operand.IsExact) (hlevels : operand.levels < n) :
    ∃ j, Reads n operand.write.toList j ∧
      Operand.ofJson? j = some (if operand = .scalar .null then none else some operand.received) := by
  cases operand with
  | scalar v =>
    obtain ⟨j, hj⟩ := exists_ofValue? (hexact v (List.mem_singleton_self v))
    refine ⟨j, reads_writeValue hj ?_, ?_⟩
    · rintro octets rfl
      exact hlevels
    · rw [ofJson?_scalar hj]
      simp
  | list vs =>
    rw [Operand.levels] at hlevels
    obtain ⟨n, rfl⟩ := Nat.exists_eq_add_of_le' (Nat.one_le_of_lt hlevels)
    have hvs (v : Value) (hv : v ∈ vs) : valueLevels v < n :=
      Nat.lt_of_le_of_lt (valueLevels_le_of_mem hv) (by omega)
    obtain ⟨js, hjs, hvalues⟩ := exists_reads_values hexact hvs
    refine ⟨.array js, reads_writeList hjs (by omega), ?_⟩
    rw [Operand.ofJson?, hvalues]
    rfl

/-! ### The members of an object -/

variable {w : WireDraft} {key : Option (List StringUnit)}
  {rest : List (Option (List StringUnit) × Draft)}

/-- A member named `op` is the operator, unless there has been one. -/
theorem ofEntries_op (hkey : key.bind decodeString? = some "op")
    (hd : ofDraft? n d = some (.string s)) (hw : w.op = none) :
    ofEntries n w ((key, d) :: rest) = ofEntries n { w with op := some s } rest := by
  rw [ofEntries, hkey]
  simp only [if_true, hw, optionalString?_of_string hd]

/-- A member named `attr` is the attribute, unless there has been one. -/
theorem ofEntries_attr (hkey : key.bind decodeString? = some "attr")
    (hd : ofDraft? n d = some (.string s)) (hw : w.attr = none) :
    ofEntries n w ((key, d) :: rest) = ofEntries n { w with attr := some (some s) } rest := by
  have hop : ¬"attr" = "op" := by decide
  rw [ofEntries, hkey]
  simp only [hop, if_false, if_true, hw, optionalString?_of_string hd]

/-- A member named `value` is the operand, unless there has been one. -/
theorem ofEntries_value (hkey : key.bind decodeString? = some "value")
    (hd : ofDraft? n d = some j) {read : Option Operand} (hj : Operand.ofJson? j = some read)
    (hw : w.operand = none) :
    ofEntries n w ((key, d) :: rest) = ofEntries n { w with operand := some read } rest := by
  have hop : ¬"value" = "op" := by decide
  have hattr : ¬"value" = "attr" := by decide
  have hread : optionalOperand? n d = some read := by rw [optionalOperand?, hd, Option.bind_some, hj]
  rw [ofEntries, hkey]
  simp only [hop, hattr, if_false, if_true, hw, hread]

/-- A member named `filters` is the list of children, unless there has been one. -/
theorem ofEntries_filters (hkey : key.bind decodeString? = some "filters")
    (hw : w.children = none) :
    ofEntries n w ((key, d) :: rest) =
      match ofChildren n d with
      | .error e => .error e
      | .ok fs => ofEntries n { w with children := some fs } rest := by
  have hop : ¬"filters" = "op" := by decide
  have hattr : ¬"filters" = "attr" := by decide
  have hvalue : ¬"filters" = "value" := by decide
  rw [ofEntries, hkey]
  cases ofChildren n d <;>
    simp only [hop, hattr, hvalue, if_false, if_true, hw, Option.isSome_none, Bool.false_eq_true]

/-- A combinator with children is a group. -/
theorem finish_group (c : Combinator) (fs : List Filter) :
    (⟨some c.code, none, none, some (some fs)⟩ : WireDraft).finish = .ok (.group c fs) := by
  simp [WireDraft.finish, WireRecord.filter, Combinator.ofCode?_code]

/-- An operator with an attribute is a predicate, if there is a value for it or it asks for none. -/
theorem finish_predicate (op : Op) (attr : String) (read : Option (Option Operand)) (g : Filter) :
    (⟨some op.code, some (some attr), read, none⟩ : WireDraft).finish = .ok g ↔
      attr ≠ "" ∧ ((∃ operand, read.join = some operand ∧ g = .predicate attr op operand) ∨
        (read.join = none ∧ op.isUnary = true ∧ g = .predicate attr op (.scalar .null))) := by
  simp only [WireDraft.finish, WireRecord.filter, Op.combinator_ofCode?_code, Op.ofCode?_code,
    Option.join_some, Option.join_none, Option.isSome_none, Bool.false_eq_true, if_false]
  by_cases hattr : attr = ""
  · have hfilter : (some attr).filter (· != "") = none := by simp [hattr]
    rw [hfilter]
    exact iff_of_false nofun fun h => h.1 hattr
  have hfilter : (some attr).filter (· != "") = some attr := by simp [hattr]
  rw [hfilter]
  cases read.join with
  | some operand =>
    constructor
    · rintro ⟨⟩
      exact ⟨hattr, .inl ⟨operand, rfl, rfl⟩⟩
    · rintro ⟨-, ⟨_, ⟨⟩, rfl⟩ | ⟨h, -⟩⟩
      · rfl
      · exact nomatch h
  | none =>
    cases hop : op.isUnary with
    | true =>
      constructor
      · rintro ⟨⟩
        exact ⟨hattr, .inr ⟨rfl, rfl, rfl⟩⟩
      · rintro ⟨-, ⟨_, h, -⟩ | ⟨-, -, rfl⟩⟩
        · exact nomatch h
        · rfl
    | false =>
      refine iff_of_false nofun ?_
      rintro ⟨-, ⟨_, h, -⟩ | ⟨-, h, -⟩⟩ <;> exact nomatch h

mutual

/-- A written filter is read as an object, and that object as the filter that is received. -/
theorem exists_reads_write {n : Nat} : (f : Filter) →
    (∀ q ∈ predicates f, q.operand.IsExact) → levels f < n →
    ∃ j, Reads n (write f).toList j ∧ ∀ d, ofDraft? n d = some j →
      ∀ g, ofDraft n d = .ok g ↔ (∀ q ∈ predicates f, q.IsSendable) ∧ g = received f
  | .group c children, hexact, hlevels => by
    rw [levels] at hlevels
    -- The children stand in a list, and that in an object.
    obtain ⟨n, rfl⟩ : ∃ m, n = m + 2 := Nat.exists_eq_add_of_le' (by omega)
    obtain ⟨js, hjs, hchildren⟩ := exists_reads_writeAll (n := n) children hexact (by omega)
    have hlist : Reads (n + 1) (writeList (writeAll children)).toList (.array js) :=
      reads_writeList hjs (by omega)
    refine ⟨.object [("op", .string c.code), ("filters", .array js)],
      reads_writeRecord (.cons ⟨rfl, reads_quote _ _⟩ (.cons ⟨rfl, hlist⟩ .nil)) (by omega),
      fun d hd g => ?_⟩
    obtain ⟨entries, rfl, hn, hentries⟩ := exists_object hd
    obtain ⟨key, d, rest, rfl, hkey, hop, hrest⟩ := exists_entries_cons hentries
    obtain ⟨key', d', rest, rfl, hkey', hfilters, hrest⟩ := exists_entries_cons hrest
    obtain rfl := entries_eq_nil hrest
    obtain ⟨ds, rfl, hn', hds⟩ := exists_array hfilters
    have hread := hchildren ds hds
    rw [ofDraft, if_neg hn, Nat.add_one_sub_one, ofEntries_op hkey hop rfl,
      ofEntries_filters hkey' rfl, ofChildren, if_neg hn', Nat.add_one_sub_one]
    show _ ↔ (∀ q ∈ predicatesAll children, q.IsSendable) ∧ g = .group c (mapOperandsAll _ children)
    cases hfs : ofDrafts n ds with
    | error e =>
      -- children that cannot be read back are not all sendable
      refine iff_of_false nofun fun h => ?_
      exact nomatch hfs.symm.trans ((hread _).2 ⟨h.1, rfl⟩)
    | ok fs =>
      obtain ⟨hsend, rfl⟩ := (hread fs).1 hfs
      show WireDraft.finish ⟨some c.code, none, none, some (some _)⟩ = .ok g ↔ _
      rw [finish_group, Except.ok.injEq, eq_comm]
      exact (and_iff_right hsend).symm
  | .predicate attr op operand, hexact, hlevels => by
    rw [levels] at hlevels
    obtain ⟨n, rfl⟩ : ∃ m, n = m + 1 := Nat.exists_eq_add_of_le' (by omega)
    rw [predicates, List.forall_mem_singleton] at hexact ⊢
    rw [write]
    cases hop : op.isUnary with
    | true =>
      refine ⟨.object [("op", .string op.code), ("attr", .string attr)],
        reads_writeRecord (.cons ⟨rfl, reads_quote _ _⟩ (.cons ⟨rfl, reads_quote _ _⟩ .nil))
          (by omega), fun d hd g => ?_⟩
      obtain ⟨entries, rfl, hn, hentries⟩ := exists_object hd
      obtain ⟨key, d, rest, rfl, hkey, hcode, hrest⟩ := exists_entries_cons hentries
      obtain ⟨key', d', rest, rfl, hkey', hattr, hrest⟩ := exists_entries_cons hrest
      obtain rfl := entries_eq_nil hrest
      rw [ofDraft, if_neg hn, Nat.add_one_sub_one, ofEntries_op hkey hcode rfl,
        ofEntries_attr hkey' hattr rfl]
      show WireDraft.finish ⟨some op.code, some (some attr), none, none⟩ = .ok g ↔ _
      rw [finish_predicate]
      simp [Predicate.IsSendable, received, mapOperands, hop]
    | false =>
      rw [hop, if_neg Bool.false_ne_true] at hlevels
      have hdeep : operand.levels < n := by omega
      obtain ⟨j, hj, hoperand⟩ := exists_reads_operand hexact hdeep
      refine ⟨.object [("op", .string op.code), ("attr", .string attr), ("value", j)],
        reads_writeRecord (.cons ⟨rfl, reads_quote _ _⟩ (.cons ⟨rfl, reads_quote _ _⟩
          (.cons ⟨rfl, hj⟩ .nil))) (by omega), fun d hd g => ?_⟩
      obtain ⟨entries, rfl, hn, hentries⟩ := exists_object hd
      obtain ⟨key, d, rest, rfl, hkey, hcode, hrest⟩ := exists_entries_cons hentries
      obtain ⟨key', d', rest, rfl, hkey', hattr, hrest⟩ := exists_entries_cons hrest
      obtain ⟨key'', d'', rest, rfl, hkey'', hvalue, hrest⟩ := exists_entries_cons hrest
      obtain rfl := entries_eq_nil hrest
      rw [ofDraft, if_neg hn, Nat.add_one_sub_one, ofEntries_op hkey hcode rfl,
        ofEntries_attr hkey' hattr rfl, ofEntries_value hkey'' hvalue hoperand rfl]
      show WireDraft.finish ⟨some op.code, some (some attr), some _, none⟩ = .ok g ↔ _
      rw [finish_predicate, Option.join_some]
      by_cases hnull : operand = .scalar .null
      · simp [Predicate.IsSendable, received, mapOperands, hop, hnull]
      · simp [Predicate.IsSendable, received, mapOperands, hop, hnull]

/-- Filters in a list are written and read one by one. -/
theorem exists_reads_writeAll {n : Nat} : (fs : List Filter) →
    (∀ q ∈ predicatesAll fs, q.operand.IsExact) → levelsAll fs < n →
    ∃ js, List.Forall₂ (fun item j => Reads n item.toList j) (writeAll fs) js ∧
      ∀ ds, ofDrafts? n ds = some js → ∀ gs, ofDrafts n ds = .ok gs ↔
        (∀ q ∈ predicatesAll fs, q.IsSendable) ∧
          gs = mapOperandsAll (fun op operand =>
            if op.isUnary then .scalar .null else operand.received) fs
  | [], _, _ => by
    refine ⟨[], .nil, fun ds hds gs => ?_⟩
    rw [drafts_eq_nil hds]
    simp [ofDrafts, predicatesAll, mapOperandsAll, eq_comm]
  | f :: fs, hexact, hlevels => by
    rw [predicatesAll, List.forall_mem_append] at hexact
    rw [levelsAll, Nat.max_lt] at hlevels
    -- The two theorems call each other, on a filter in the list and on the rest of it.
    obtain ⟨j, hj, hf⟩ := exists_reads_write f hexact.1 hlevels.1
    obtain ⟨js, hjs, hfs⟩ := exists_reads_writeAll fs hexact.2 hlevels.2
    refine ⟨j :: js, .cons hj hjs, fun ds hds gs => ?_⟩
    obtain ⟨d, rest, rfl, hd, hrest⟩ := exists_drafts_cons hds
    rw [ofDrafts, predicatesAll, List.forall_mem_append, mapOperandsAll]
    constructor
    · intro h
      split at h
      next => cases h
      next g hg =>
        split at h
        next gs' hgs =>
          cases h
          obtain ⟨hsend, rfl⟩ := (hf d hd g).1 hg
          obtain ⟨hsends, rfl⟩ := (hfs rest hrest gs').1 hgs
          exact ⟨⟨hsend, hsends⟩, rfl⟩
        next => cases h
    · rintro ⟨⟨hsend, hsends⟩, rfl⟩
      rw [(hf d hd _).2 ⟨hsend, rfl⟩, (hfs rest hrest _).2 ⟨hsends, rfl⟩]
      rfl

end

/-! ### Filters from the wire -/

/-- The operand is one that the wire can tell: neither the null nor a blob. -/
structure Operand.IsTold (operand : Operand) : Prop where
  notNull : operand ≠ .scalar .null
  notBlob : ∀ octets, operand ≠ .scalar (.blob octets)

/-- The predicate has an attribute, and an operand that the wire can tell if its operator compares.
-/
structure Predicate.IsTold (q : Predicate) : Prop where
  attr : q.attr ≠ ""
  operand : q.op.isUnary = true ∨ q.operand.IsTold

/-- The members read so far are ones that the wire can tell. -/
structure WireDraft.IsTold (w : WireDraft) : Prop where
  operand : ∀ v, w.operand.join = some v → v.IsTold
  children : ∀ fs, w.children.join = some fs → ∀ q ∈ predicatesAll fs, q.IsTold

namespace WireDraft

theorem isTold_named (op : Option String) (attr : Option (Option String)) :
    IsTold ⟨op, attr, none, none⟩ := ⟨nofun, nofun⟩

theorem IsTold.setOp (hw : w.IsTold) (op : Option String) : IsTold { w with op := op } :=
  ⟨hw.operand, hw.children⟩

theorem IsTold.setAttr (hw : w.IsTold) (attr : Option (Option String)) :
    IsTold { w with attr := attr } := ⟨hw.operand, hw.children⟩

theorem IsTold.setOperand (hw : w.IsTold) {v : Option Operand}
    (hv : ∀ operand, v = some operand → operand.IsTold) : IsTold { w with operand := some v } :=
  ⟨hv, hw.children⟩

theorem IsTold.setChildren (hw : w.IsTold) {fs : Option (List Filter)}
    (hfs : ∀ gs, fs = some gs → ∀ q ∈ predicatesAll gs, q.IsTold) :
    IsTold { w with children := some fs } := ⟨hw.operand, hfs⟩

end WireDraft

/-- An operand that is read from a document is one that a document can tell. -/
theorem isTold_of_ofJson? (h : Operand.ofJson? j = some (some operand)) : operand.IsTold := by
  cases j with
  | null => exact nomatch h
  | array items =>
    obtain ⟨vs, -, heq⟩ := Option.map_eq_some_iff.1 h
    cases heq
    exact ⟨nofun, nofun⟩
  | object entries => exact nomatch h
  | number x =>
    obtain ⟨v, hv, heq⟩ := Option.map_eq_some_iff.1 h
    cases heq
    cases x with
    | natural i =>
      obtain ⟨i, -, rfl⟩ := Option.map_eq_some_iff.1 hv
      exact ⟨nofun, nofun⟩
    | negative i =>
      cases hv
      exact ⟨nofun, nofun⟩
    | real x =>
      cases hv
      exact ⟨nofun, nofun⟩
  | bool b =>
    cases h
    exact ⟨nofun, nofun⟩
  | string s =>
    cases h
    exact ⟨nofun, nofun⟩

theorem isTold_of_optionalOperand? {v : Option Operand} (h : optionalOperand? n d = some v) :
    ∀ operand, v = some operand → operand.IsTold := by
  rintro operand rfl
  obtain ⟨j, -, hj⟩ := Option.bind_eq_some_iff.1 h
  exact isTold_of_ofJson? hj

/-- The filters that members make. -/
theorem cases_of_filter {r : WireRecord} {f : Filter} (h : r.filter = .ok f) :
    (∃ c, f = .group c (r.children.getD [])) ∨
      ∃ attr op, attr ≠ "" ∧ ((∃ v, r.operand = some v ∧ f = .predicate attr op v) ∨
        op.isUnary = true ∧ f = .predicate attr op (.scalar .null)) := by
  unfold WireRecord.filter at h
  split at h
  next c hc =>
    split at h <;> cases h
    exact .inl ⟨c, rfl⟩
  right
  split at h
  · cases h
  next op hop =>
  split at h
  · cases h
  split at h
  · cases h
  next attr hattr =>
  have hname : attr ≠ "" := by simpa using (Option.filter_eq_some_iff.1 hattr).2
  refine ⟨attr, op, hname, ?_⟩
  split at h
  next v hv =>
    cases h
    exact .inl ⟨v, hv, rfl⟩
  split at h <;> cases h
  next hunary => exact .inr ⟨hunary, rfl⟩

/-- The members make a filter that the wire can tell. -/
theorem isTold_of_finish {f : Filter} (hw : w.IsTold) (h : w.finish = .ok f) :
    ∀ q ∈ predicates f, q.IsTold := by
  unfold WireDraft.finish at h
  split at h
  · cases h
  split at h <;> cases h
  next hf =>
  obtain ⟨c, rfl⟩ | ⟨attr, op, hname, ⟨v, hv, rfl⟩ | ⟨hop, rfl⟩⟩ := cases_of_filter hf
  · rw [predicates]
    cases hchildren : w.children.join with
    | none => exact List.forall_mem_nil _
    | some fs => exact hw.children fs hchildren
  · exact List.forall_mem_singleton.2 ⟨hname, .inr (hw.operand v hv)⟩
  · exact List.forall_mem_singleton.2 ⟨hname, .inl hop⟩

mutual

/-- The operands of a filter that is read are ones that a document can tell, by recursion on the
document. -/
theorem isTold_of_ofDraft {f : Filter} : (n : Nat) → (d : Draft) → ofDraft n d = .ok f →
    ∀ q ∈ predicates f, q.IsTold
  | n, .object entries, h => by
    rw [ofDraft] at h
    split at h
    next => cases h
    next => exact isTold_of_ofEntries (n - 1) .start entries (WireDraft.isTold_named ..) h
  | n, .array (op :: rest), h => by
    rw [ofDraft] at h
    split at h
    next => cases h
    next =>
      split at h
      next op hop => exact isTold_of_ofMembers (n - 1) op rest h
      next => cases h
  | _, .array [], h => nomatch h
  | _, .null, h | _, .bool _, h | _, .number _, h | _, .string _, h | _, .broken, h => nomatch h

theorem isTold_of_ofMembers {f : Filter} : (n : Nat) → (op : String) → (ds : List Draft) →
    ofMembers n op ds = .ok f → ∀ q ∈ predicates f, q.IsTold
  | _, _, [], h => by
    rw [ofMembers] at h
    exact isTold_of_finish (WireDraft.isTold_named ..) h
  | n, op, [attr], h => by
    rw [ofMembers] at h
    split at h
    next => exact isTold_of_finish (WireDraft.isTold_named ..) h
    next => cases h
  | n, op, [attr, operand], h => by
    rw [ofMembers] at h
    split at h
    next hoperand =>
      have hw := WireDraft.isTold_named (some op) none
      exact isTold_of_finish
        ((hw.setAttr _).setOperand (isTold_of_optionalOperand? hoperand)) h
    next => cases h
  | n, op, attr :: operand :: children :: rest, h => by
    rw [ofMembers] at h
    split at h
    next hoperand =>
      split at h
      next => cases h
      next fs hfs =>
        split at h
        next =>
          have hw := WireDraft.isTold_named (some op) none
          exact isTold_of_finish
            (((hw.setAttr _).setOperand (isTold_of_optionalOperand? hoperand)).setChildren
              (isTold_of_ofChildren n children hfs)) h
        next => cases h
    next => cases h

theorem isTold_of_ofEntries {f : Filter} : (n : Nat) → (w : WireDraft) →
    (entries : List (Option (List StringUnit) × Draft)) → w.IsTold → ofEntries n w entries = .ok f →
    ∀ q ∈ predicates f, q.IsTold
  | n, w, [], hw, h => isTold_of_finish hw h
  | n, w, (key, d) :: rest, hw, h => by
    rw [ofEntries] at h
    split at h
    next => cases h
    next name hname =>
      split_ifs at h
      · split at h
        next => exact isTold_of_ofEntries n _ rest (hw.setOp _) h
        next => cases h
      · split at h
        next => exact isTold_of_ofEntries n _ rest (hw.setAttr _) h
        next => cases h
      · split at h
        next hoperand =>
          exact isTold_of_ofEntries n _ rest
            (hw.setOperand (isTold_of_optionalOperand? hoperand)) h
        next => cases h
      · split at h
        next => cases h
        next fs hfs =>
          exact isTold_of_ofEntries n _ rest (hw.setChildren (isTold_of_ofChildren n d hfs)) h
      · exact isTold_of_ofEntries n w rest hw h

theorem isTold_of_ofChildren {fs : Option (List Filter)} : (n : Nat) → (d : Draft) →
    ofChildren n d = .ok fs → ∀ gs, fs = some gs → ∀ q ∈ predicatesAll gs, q.IsTold
  | n, .array items, h => by
    rw [ofChildren] at h
    split at h
    next => cases h
    next =>
      split at h
      next gs hgs =>
        cases h
        rintro _ ⟨⟩
        exact isTold_of_ofDrafts (n - 1) items hgs
      next => cases h
  | _, .null, h => by
    cases h
    nofun
  | _, .object _, h | _, .bool _, h | _, .number _, h | _, .string _, h | _, .broken, h => nomatch h

theorem isTold_of_ofDrafts {fs : List Filter} : (n : Nat) → (ds : List Draft) →
    ofDrafts n ds = .ok fs → ∀ q ∈ predicatesAll fs, q.IsTold
  | n, [], h => by
    cases h
    exact List.forall_mem_nil _
  | n, d :: ds, h => by
    rw [ofDrafts] at h
    split at h
    next => cases h
    next f hf =>
      split at h
      next fs' hfs =>
        cases h
        rw [predicatesAll, List.forall_mem_append]
        exact ⟨isTold_of_ofDraft n d hf, isTold_of_ofDrafts n ds hfs⟩
      next => cases h

end

end

mutual

/-- Only what becomes of the operands in a filter matters. -/
theorem mapOperands_congr {change change' : Op → Operand → Operand} : (f : Filter) →
    (∀ q ∈ predicates f, change q.op q.operand = change' q.op q.operand) →
    mapOperands change f = mapOperands change' f
  | .group c children, h => by rw [mapOperands, mapOperands, mapOperandsAll_congr children h]
  | .predicate attr op operand, h => by
    rw [mapOperands, mapOperands, h ⟨attr, op, operand⟩ (List.mem_singleton_self _)]

theorem mapOperandsAll_congr {change change' : Op → Operand → Operand} : (fs : List Filter) →
    (∀ q ∈ predicatesAll fs, change q.op q.operand = change' q.op q.operand) →
    mapOperandsAll change fs = mapOperandsAll change' fs
  | [], _ => rfl
  | f :: fs, h => by
    rw [predicatesAll, List.forall_mem_append] at h
    rw [mapOperandsAll, mapOperandsAll, mapOperands_congr f h.1, mapOperandsAll_congr fs h.2]

end

/-- An operand that a document can tell is received as it is. -/
theorem Operand.IsTold.received_eq {operand : Operand} (h : operand.IsTold) :
    operand.received = operand := by
  unfold Operand.received
  split
  next octets => exact absurd rfl (h.notBlob octets)
  next => rfl

/-- Of a filter that comes from the wire, only unary operands are lost. -/
theorem received_of_isTold {f : Filter} (h : ∀ q ∈ predicates f, q.IsTold) : f.received = f.bare := by
  refine mapOperands_congr f fun q hq => ?_
  rcases (h q hq).operand with hop | hoperand
  · rw [if_pos hop, if_pos hop]
  · rw [hoperand.received_eq]

/-- The filter of a text is the filter of the draft of the text. -/
theorem exists_ofDraft_of_ofText {cs : List Char} {f : Filter} (h : ofText cs = .ok f) :
    ∃ d, ofDraft Json.nestLimit d = .ok f := by
  unfold ofText at h
  split at h
  next d clean hd =>
    split at h
    next f' hf =>
      split at h <;> cases h
      exact ⟨d, hf⟩
    next => cases h

/-- Which filters are read back. A filter without reals, nested less deep than JSON may be, is read
back exactly if every predicate has an attribute and none that compares is given the null; what is
read is the filter with the null for every unary operand, and with the list of its octets for every
blob that is an operand by itself. So a filter that has been read is read back as it is, but for
unary operands. -/
theorem ofText_write {f : Filter} (hexact : ∀ q ∈ predicates f, q.operand.IsExact)
    (hlevels : levels f < Json.nestLimit) :
    (∀ g, ofText (write f).toList = .ok g ↔ (∀ q ∈ predicates f, q.IsSendable) ∧ g = received f) ∧
    ∀ cs, ofText cs = .ok f → ofText (write f).toList = .ok (bare f) := by
  obtain ⟨j, hj, hread⟩ := exists_reads_write f hexact hlevels
  obtain ⟨d, hd, hdraft⟩ := hj.reads (2 * (write f).toList.length + 2) [] (by omega) Json.closes_nil
  rw [List.append_nil] at hd
  have htext (g : Filter) : ofText (write f).toList = .ok g ↔ ofDraft Json.nestLimit d = .ok g := by
    rw [ofText, Json.Draft.ofText, hd]
    simp only
    cases ofDraft Json.nestLimit d <;> rfl
  have hback (g : Filter) := (htext g).trans (hread d hdraft g)
  refine ⟨hback, fun cs hcs => ?_⟩
  obtain ⟨d', hd'⟩ := exists_ofDraft_of_ofText hcs
  have htold := isTold_of_ofDraft Json.nestLimit d' hd'
  have hsendable (q : Predicate) (hq : q ∈ predicates f) : q.IsSendable :=
    ⟨(htold q hq).attr, (htold q hq).operand.imp id (·.notNull)⟩
  exact (hback _).2 ⟨hsendable, (received_of_isTold htold).symm⟩

/-- The operand of a unary operator is not written, and a blob is read as a list. -/
theorem ofText_write_blob :
    let f : Filter := .group .and [.predicate "a" .eq (.scalar (.blob [1, 255])),
      .group .or [], .predicate "b" .isNull (.scalar (.text "c"))]
    (∀ q ∈ predicates f, q.operand.IsExact) ∧ levels f < Json.nestLimit ∧
      ofText (write f).toList = .ok (.group .and [.predicate "a" .eq
        (.list [.integer 1, .integer 255]), .group .or [], .predicate "b" .isNull (.scalar .null)]) := by
  intro f
  have hexact : ∀ q ∈ predicates f, q.operand.IsExact := by
    simp [f, predicates, predicatesAll, Operand.IsExact, Operand.values]
  have hlevels : levels f < Json.nestLimit := by decide
  refine ⟨hexact, hlevels, ((ofText_write hexact hlevels).1 _).2 ⟨?_, rfl⟩⟩
  simp [f, predicates, predicatesAll, Predicate.IsSendable, Op.isUnary]

end Filter

end ResourceEngine
