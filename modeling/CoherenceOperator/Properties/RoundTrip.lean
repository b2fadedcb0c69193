import CoherenceOperator.Api.ResourcesJson
import CoherenceOperator.Storage

/-!
# Resources written and read

A version of the resources is written without its deletions. The comma before an item is there unless the item is the first of all, so
behind a deletion that comes first the list begins with a comma, and the text is not JSON. Otherwise the text is JSON, and what is read from
it is the version with the items that are there (`roundTrips_iff`). The check that the state store makes is this one
(`checkMarshal_eq_ok_iff`).
-/

namespace CoherenceOperator

namespace StoredResources

variable {O : Type}

/-- The encoding of the object `o` of the item `r` is read back: what is written is a JSON object, of the kind and the name of the
item, from which the object is made again. -/
def EncodesAs (codec : ObjectCodec O) (r : StoredResource O) (o : O) (text : String) (fields : List (String × Json)) : Prop :=
  codec.marshal o = .ok text ∧ Json.parse text = some (.object fields) ∧ codec.kind (.object fields) = r.kind.name ∧
    codec.name (.object fields) = r.name ∧ codec.fromUnstructured r.kind (.object fields) = .ok o

/-- An item of a supported kind, with a name, whose object is read back. -/
structure IsEncoded (codec : ObjectCodec O) (r : StoredResource O) : Prop where
  supported : r.kind ≠ .coherenceJob
  named : r.name ≠ ""
  encodes : ∀ o ∈ r.spec, ∃ text fields, EncodesAs codec r o text fields

/-- What `UnmarshalJSON` of an `UnstructuredList` makes of a list: its `apiVersion` and its items, if each of these has a kind. -/
def ReadsLists (codec : ObjectCodec O) : Prop :=
  ∀ text version kind items, kind ≠ "" → (∀ u ∈ items, (∃ fields, u = .object fields) ∧ codec.kind u ≠ "") →
    Json.parse text = some (.object [("apiVersion", .string version), ("kind", .string kind), ("items", .array items)]) →
      codec.unmarshalList text = .ok (version, items)

/-- **The round trip**: the resources are written as JSON, and what is read from it is the version and the items that are no
deletions. -/
def RoundTrips (codec : ObjectCodec O) (res : StoredResources O) : Prop :=
  ∃ text, marshalJSON codec res = .ok text ∧ (Json.parse text).isSome = true ∧
    unmarshalJSON codec {} text = .ok { res with items := res.items.filter fun r => !r.isDelete }

/-- The first item is no deletion, or all are. -/
def BeginsPresent (res : StoredResources O) : Prop :=
  (∀ r ∈ res.items.head?, r.isDelete = false) ∨ ∀ r ∈ res.items, r.isDelete = true

section

variable {codec : ObjectCodec O} {res : StoredResources O} {rs : List (StoredResource O)} {st : List Json.Frame} {v : Json}
  {done : List Json}

open Json (run Mode Frame)

/-! ### The text around the items -/

/-- The digits and the sign of a number stand for themselves. -/
theorem isPlain_of_mem_toString (n : ℤ) : ∀ c ∈ (toString n).toList, Json.IsPlain c := by
  have hdigit : ∀ c : Char, c.isDigit = true → Json.IsPlain c := by
    intro c hc
    rw [Char.isDigit, Bool.and_eq_true, decide_eq_true_eq, decide_eq_true_eq] at hc
    refine ⟨?_, ?_, ?_⟩
    · rintro rfl
      exact absurd hc (by decide)
    · rintro rfl
      exact absurd hc (by decide)
    · exact le_trans (by decide) hc.1
  have hdigits : ∀ m, ∀ c ∈ Nat.toDigits 10 m, Json.IsPlain c := fun m c hc =>
    hdigit c (Nat.isDigit_of_mem_toDigits (by decide) (by decide) hc)
  cases n with
  | ofNat m =>
    have hlist : (toString (Int.ofNat m)).toList = Nat.toDigits 10 m := String.toList_ofList
    rw [hlist]
    exact hdigits m
  | negSucc m =>
    have htext : toString (Int.negSucc m) = "-" ++ String.ofList (Nat.toDigits 10 (m + 1)) := rfl
    intro c hc
    rw [htext, String.toList_append, List.mem_append] at hc
    obtain hc | hc := hc
    · obtain rfl : c = '-' := by simpa using hc
      decide
    · rw [String.toList_ofList] at hc
      exact hdigits _ c hc

/-- The fields of the list before its items. -/
def header (version : Int32) : List (String × Json) :=
  [("kind", .string "Resources"), ("apiVersion", .string (toString version.toInt))]

/-- The text before the items. -/
def opening (version : Int32) : String :=
  "\x7b\"apiVersion\":\"" ++ toString version.toInt ++ "\"" ++ ", \"kind\": \"Resources\"" ++ ", \"items\":["

/-- The text of a list. -/
def listText (version : Int32) (items : String) : String := opening version ++ items ++ "]\x7d"

/-- What is read of the text before the items. -/
theorem run_header (version : Int32) :
    run (.value, []) (opening version).toList = some (.valueOrEnd, [.items [], .field (header version) "items"]) := by
  have hopen : run (.value, []) "\x7b\"apiVersion\":\"".toList =
      some (.string false [] .none, [.field [] "apiVersion"]) := rfl
  have hversion := @Json.run_plain [.field [] "apiVersion"] (toString version.toInt).toList
    (isPlain_of_mem_toString version.toInt)
  have hquote : "\"".toList = ['"'] := rfl
  have hrest : run (.after (.string (toString version.toInt)), [.field [] "apiVersion"])
      (", \"kind\": \"Resources\"" ++ ", \"items\":[").toList =
      some (.valueOrEnd, [.items [], .field (header version) "items"]) := rfl
  rw [String.ofList_toList] at hversion
  unfold opening
  rw [String.append_assoc, String.append_assoc, String.append_assoc, String.toList_append, Json.run_append_of_eq hopen,
    ← String.append_assoc, String.toList_append, String.toList_append, hquote, Json.run_append_of_eq hversion, hrest]

/-! ### The items -/

/-- The values `us` are objects with a kind, from which the items of `rs` are read that are no deletions. -/
def Represent (codec : ObjectCodec O) (us : List Json) (rs : List (StoredResource O)) : Prop :=
  (∀ u ∈ us, (∃ fields, u = .object fields) ∧ codec.kind u ≠ "") ∧
    unmarshalItems codec us = .ok (rs.filter fun r => !r.isDelete)

theorem Represent.delete {us : List Json} {r : StoredResource O} (hr : r.spec = none) (h : Represent codec us rs) :
    Represent codec us (r :: rs) := by
  have hdelete : r.isDelete = true := by
    rw [StoredResource.isDelete, hr]
    rfl
  refine ⟨h.1, ?_⟩
  rw [List.filter_cons_of_neg (by simp [hdelete])]
  exact h.2

theorem Represent.cons {us : List Json} {r : StoredResource O} {o : O} {b : String} {fields : List (String × Json)}
    (hr : IsEncoded codec r) (hspec : r.spec = some o) (hb : EncodesAs codec r o b fields) (h : Represent codec us rs) :
    Represent codec (.object fields :: us) (r :: rs) := by
  obtain ⟨-, -, hkind, hname, hfrom⟩ := hb
  have hdelete : r.isDelete = false := by
    rw [StoredResource.isDelete, hspec]
    rfl
  refine ⟨List.forall_mem_cons.2 ⟨⟨⟨fields, rfl⟩, ?_⟩, h.1⟩, ?_⟩
  · rw [hkind]
    cases r.kind <;> decide
  · rw [List.filter_cons_of_pos (by simp [hdelete]), unmarshalItems, hkind, toResourceType_name hr.supported]
    obtain ⟨kind, name, spec⟩ := r
    dsimp only at hspec hname hfrom
    subst hspec hname
    simp [hfrom, h.2, Except.mapError, bind, Except.bind, pure, Except.pure]

/-- An item that is written. -/
theorem marshalItems_of_spec {i : ℕ} {r : StoredResource O} {o : O} {b text : String} (hspec : r.spec = some o)
    (hb : codec.marshal o = .ok b) (h : marshalItems codec (i + 1) rs = .ok text) :
    marshalItems codec i (r :: rs) = .ok ((if 0 < i then ", " else "") ++ b ++ text) := by
  rw [marshalItems, hspec]
  dsimp only
  rw [hb, h]
  rfl

theorem marshalItems_of_delete {i : ℕ} {r : StoredResource O} (hspec : r.spec = none) :
    marshalItems codec i (r :: rs) = marshalItems codec (i + 1) rs := by
  rw [marshalItems, hspec]

/-- Items behind another one: each is written behind a comma. -/
theorem exists_marshalItems (h : ∀ r ∈ rs, IsEncoded codec r) {i : ℕ} (hi : 0 < i) (v : Json) (done : List Json) :
    ∃ text us, marshalItems codec i rs = .ok text ∧ Represent codec us rs ∧
      ∃ v' done', run (.after v, .items done :: st) text.toList = some (.after v', .items done' :: st) ∧
        (v' :: done').reverse = (v :: done).reverse ++ us := by
  induction rs generalizing i v done with
  | nil => exact ⟨"", [], rfl, ⟨by simp, rfl⟩, v, done, rfl, by simp⟩
  | cons r rs ih =>
    obtain ⟨hr, hrs⟩ := List.forall_mem_cons.1 h
    cases hspec : r.spec with
    | none =>
      obtain ⟨text, us, hmarshal, hus, hrun⟩ := ih hrs (Nat.succ_pos i) v done
      exact ⟨text, us, (marshalItems_of_delete hspec).trans hmarshal, hus.delete hspec, hrun⟩
    | some o =>
      obtain ⟨b, fields, hb⟩ := hr.encodes o hspec
      obtain ⟨text, us, hmarshal, hus, v', done', hrun, hvalues⟩ := ih hrs (Nat.succ_pos i) (.object fields) (v :: done)
      have htext := marshalItems_of_spec hspec hb.1 hmarshal
      rw [if_pos hi] at htext
      refine ⟨", " ++ b ++ text, .object fields :: us, htext, hus.cons hr hspec hb, v', done', ?_, ?_⟩
      · have hcomma : run (.after v, .items done :: st) ", ".toList = some (.value, .items (v :: done) :: st) := rfl
        rw [String.append_assoc, String.toList_append, Json.run_append_of_eq hcomma, String.toList_append,
          Json.run_append_of_eq (Json.run_of_parse_object hb.2.1), hrun]
      · rw [hvalues]
        simp

/-- Items behind a deletion: the first that is written is written behind a comma. -/
theorem marshalItems_of_present {i : ℕ} (hi : 0 < i) {text : String} (h : marshalItems codec i rs = .ok text)
    (hpresent : ∃ r ∈ rs, r.isDelete = false) : ∃ rest, text.toList = ',' :: rest := by
  induction rs generalizing i text with
  | nil => simp at hpresent
  | cons r rs ih =>
    cases hspec : r.spec with
    | none =>
      have hdelete : r.isDelete = true := by
        rw [StoredResource.isDelete, hspec]
        rfl
      rw [marshalItems_of_delete hspec] at h
      refine ih (Nat.succ_pos i) h ?_
      obtain ⟨r', hr', hr'delete⟩ := hpresent
      obtain rfl | hr' := List.mem_cons.1 hr'
      · rw [hdelete] at hr'delete
        cases hr'delete
      · exact ⟨r', hr', hr'delete⟩
    | some o =>
      rw [marshalItems, hspec] at h
      dsimp only at h
      obtain ⟨b, -, h⟩ := Effect.Prog.bind_eq_ok.1 h
      obtain ⟨rest, -, h⟩ := Effect.Prog.bind_eq_ok.1 h
      cases h
      rw [if_pos hi, String.append_assoc, String.toList_append]
      exact ⟨_, rfl⟩

/-- Where nothing is written, there is no text. -/
theorem marshalItems_of_deletes {i : ℕ} (h : ∀ r ∈ rs, r.isDelete = true) : marshalItems codec i rs = .ok "" := by
  induction rs generalizing i with
  | nil => rfl
  | cons r rs ih =>
    obtain ⟨hr, hrs⟩ := List.forall_mem_cons.1 h
    rw [marshalItems_of_delete (Option.isNone_iff_eq_none.1 hr), ih hrs]

/-! ### The round trip -/

/-- The whole text, of which the values of the items are read. -/
theorem parse_of_run {version : Int32} {text : String} {us : List Json}
    (h : ∃ v' done', run (.valueOrEnd, .items [] :: [.field (header version) "items"]) text.toList =
        some (.after v', .items done' :: [.field (header version) "items"]) ∧ (v' :: done').reverse = us) :
    Json.parse (listText version text) = some (.object [("apiVersion", .string (toString version.toInt)),
        ("kind", .string "Resources"), ("items", .array us)]) := by
  obtain ⟨v', done', hrun, rfl⟩ := h
  have hend : run (.after v', .items done' :: [.field (header version) "items"]) "]\x7d".toList =
      some (.after (.object [("apiVersion", .string (toString version.toInt)), ("kind", .string "Resources"),
        ("items", .array (v' :: done').reverse)]), []) := rfl
  rw [Json.parse, listText, String.toList_append, String.toList_append, List.append_assoc, Json.run_append_of_eq (run_header version),
    Json.run_append_of_eq hrun, hend]
  rfl

/-- The text of a list without items. -/
theorem parse_of_empty (version : Int32) :
    Json.parse (listText version "") = some (.object [("apiVersion", .string (toString version.toInt)),
        ("kind", .string "Resources"), ("items", .array [])]) := by
  have hend : run (.valueOrEnd, .items [] :: [.field (header version) "items"]) "]\x7d".toList =
      some (.after (.object [("apiVersion", .string (toString version.toInt)), ("kind", .string "Resources"),
        ("items", .array [])]), []) := rfl
  rw [Json.parse, listText, String.append_empty, String.toList_append, Json.run_append_of_eq (run_header version), hend]
  rfl

/-- A list that begins with a comma is no list. -/
theorem parse_of_comma (version : Int32) {text : String} {rest : List Char} (h : text.toList = ',' :: rest) :
    Json.parse (listText version text) = none := by
  rw [Json.parse, listText, String.toList_append, String.toList_append, List.append_assoc, Json.run_append_of_eq (run_header version), h]
  rfl

theorem marshalJSON_of_items {text : String} (h : marshalItems codec 0 res.items = .ok text) :
    marshalJSON codec res = .ok (listText res.version text) := by
  rw [marshalJSON, h]
  rfl

/-- A text that is a list of what represents the items is read back. -/
theorem roundTrips_of_parse (hlists : ReadsLists codec) {text : String} {us : List Json}
    (hmarshal : marshalItems codec 0 res.items = .ok text) (hus : Represent codec us res.items)
    (hparse : Json.parse (listText res.version text) = some (.object [("apiVersion", .string (toString res.version.toInt)),
        ("kind", .string "Resources"), ("items", .array us)])) : RoundTrips codec res := by
  have hlist := hlists _ _ _ _ (by decide) hus.1 hparse
  have hfits : Int64Bits.Fits res.version.toInt := by
    have hle := Int32.le_toInt res.version
    have hlt := Int32.toInt_lt res.version
    constructor
    · omega
    · omega
  refine ⟨_, marshalJSON_of_items hmarshal, by rw [hparse]; rfl, ?_⟩
  rw [unmarshalJSON, hlist]
  simp only [bind, Except.bind, pure, Except.pure, parseInt_toString hfits, hus.2, Int32.ofInt_toInt, List.nil_append]

end

/-! ### The check of the state store -/

theorem items_toStored (res : Resources) :
    res.toStored.items = res.items.map fun r => (⟨r.kind, r.name, r.spec⟩ : StoredResource Object) := rfl

/-- The check of the state store is whether the text is JSON. -/
theorem checkMarshal_eq_ok_iff (res : Resources) : Storage.checkMarshal res = .ok () ↔ res.toStored.BeginsPresent := by
  have hcheck : (res.items.head?.any (·.isDelete) && res.items.any (·.isPresent)) = true ↔ ¬res.toStored.BeginsPresent := by
    rw [BeginsPresent, items_toStored, List.head?_map, not_or, Bool.and_eq_true]
    simp [Option.any_eq_true, StoredResource.isDelete, Resource.isDelete, Resource.isPresent, Option.isSome_iff_ne_none]
  rw [Storage.checkMarshal]
  split_ifs with h
  · refine iff_of_false ?_ (hcheck.1 h)
    rintro ⟨⟩
  · exact iff_of_true rfl (not_not.1 (mt hcheck.2 h))

/-- What it keeps of a version is what is read. -/
theorem items_marshal (res : Resources) :
    (Storage.marshal res).toStored.items = res.toStored.items.filter fun r => !r.isDelete := by
  rw [items_toStored, items_toStored, List.filter_map, Storage.marshal]
  congr 1
  refine List.filter_congr fun r _ => ?_
  cases h : r.spec with
  | none => simp [Resource.isPresent, StoredResource.isDelete, h]
  | some o => simp [Resource.isPresent, StoredResource.isDelete, h]

/-! ### ConfigMaps without data -/

/-- The field of an object. -/
def fieldOf (name : String) : Json → Option Json
  | .object fields => fields.reverse.lookup name
  | _ => none

/-- The text of a string. -/
def textOf : Option Json → String
  | some (.string s) => s
  | _ => ""

/-- The encoding of ConfigMaps without data. -/
def configMapCodec : ObjectCodec Object where
  marshal o := .ok ("\x7b\"kind\":\"ConfigMap\",\"apiVersion\":\"v1\",\"metadata\":\x7b\"name\":\"" ++ o.metadata.name ++
    "\",\"namespace\":\"" ++ o.metadata.ns ++ "\"\x7d\x7d")
  unmarshalList text :=
    match (Json.parse text).bind (fieldOf "items") with
    | some (.array us) => .ok (textOf ((Json.parse text).bind (fieldOf "apiVersion")), us)
    | _ => .error (.message "couldn't get version/kind; json parse error")
  kind u := textOf (fieldOf "kind" u)
  name u := textOf ((fieldOf "metadata" u).bind (fieldOf "name"))
  fromUnstructured _ u :=
    .ok ⟨{ name := textOf ((fieldOf "metadata" u).bind (fieldOf "name")),
           ns := textOf ((fieldOf "metadata" u).bind (fieldOf "namespace")) }, .configMap ∅⟩

/-- A ConfigMap without data. -/
def emptyConfigMap : Object := ⟨{ ns := "default", name := "storage-config" }, .configMap ∅⟩

/-- A deletion in front of the ConfigMap, and behind it. -/
def deletionFirst : StoredResources Object :=
  { version := 2, items := [⟨.secret, "storage-secret", none⟩, ⟨.configMap, "storage-config", some emptyConfigMap⟩] }

def deletionLast : StoredResources Object :=
  { version := 2, items := [⟨.configMap, "storage-config", some emptyConfigMap⟩, ⟨.secret, "storage-secret", none⟩] }

theorem readsLists_configMapCodec : ReadsLists configMapCodec := by
  intro text version kind items _ _ h
  rw [configMapCodec]
  dsimp only
  rw [h]
  rfl

set_option maxRecDepth 20000 in
theorem parse_emptyConfigMap : Json.parse ("\x7b\"kind\":\"ConfigMap\",\"apiVersion\":\"v1\",\"metadata\":\x7b\"name\":\"" ++
    emptyConfigMap.metadata.name ++ "\",\"namespace\":\"" ++ emptyConfigMap.metadata.ns ++ "\"\x7d\x7d") =
    some (.object [("kind", .string "ConfigMap"), ("apiVersion", .string "v1"), ("metadata", .object [("name",
      .string "storage-config"), ("namespace", .string "default")])]) := by
  rfl

theorem isEncoded_deletionLast : ∀ r ∈ deletionLast.items, IsEncoded configMapCodec r := by
  intro r hr
  simp only [deletionLast, List.mem_cons, List.not_mem_nil, or_false] at hr
  obtain rfl | rfl := hr
  · refine ⟨by decide, by decide, ?_⟩
    rintro o ⟨⟩
    exact ⟨_, _, rfl, parse_emptyConfigMap, rfl, rfl, rfl⟩
  · refine ⟨by decide, by decide, ?_⟩
    rintro o ⟨⟩

end StoredResources

end CoherenceOperator
