/-
# Every format reads back what it writes

From the types up to whole documents, the decoder of each format takes the
value that its encoder writes for something to that thing. For types this goes
by recursion over a type and its arguments; for records field by field. What
is written is readable throughout, so that the places of requests, which are
held back while they are read, are read all the same.

Key theorems: `JavaType.ofHeldJson?_toJson`, `Model.ofJson?_toJson`,
`Request.ofJson?_toJson`, `Chain.ofJson?_toJson`, `Limits.ofJson?_toJson`,
`Settings.ofJson?_toJson`.
-/
import CallChain.Proofs.Json.Fields
import CallChain.Completion.Json
import CallChain.Chain.Json
import CallChain.Limits.Json
import CallChain.Settings.Json
import CallChain.TypeTable.Json

namespace CallChain

/-! ### Types -/

namespace JavaType

variable {held : Bool}

theorem toJson_ne_null (t : JavaType) : t.toJson ≠ .null := by
  cases t <;> simp [toJson, taggedJson]

/-- What an alternative's content makes of it, without the sizes that let the
decoder end. -/
theorem ofHeldJson?_taggedJson (tag : String) (content : Json) :
    ofHeldJson? held (taggedJson tag content) =
      match tag, content with
      | "Raw", .str name => some (plain name)
      | "Id", .str name => some (named name)
      | "Generic", c =>
        match c.objectSlots ["base", "args"] with
        | some [some base, some (.arr args)] => do
          some (applied (← ofHeldJson? held base) (← listOfHeldJson? held args))
        | _ => none
      | "Array", c =>
        match c.objectSlots ["element", "dimensions"] with
        | some [some element, some (.num (.ofNat dims))] =>
          (ofHeldJson? held element).map (array · dims)
        | _ => none
      | "Unknown", .null => some unresolved
      | _, _ => none := by
  have htag := tagged?_taggedJson alternatives held tag content
  rw [ofHeldJson?]
  split
  · simp_all
  · rename_i t ht
    obtain rfl := Option.some.inj (htag.symm.trans ht)
    simp only
    split
    case h_1 | h_2 | h_5 | h_6 => simp_all
    case h_3 c _ heq =>
      obtain rfl := Option.some.inj heq
      split
      · rename_i base args hslots
        simp only [hslots]
        cases ofHeldJson? held base <;> cases listOfHeldJson? held args <;> rfl
      · simp_all
    case h_4 c _ heq =>
      obtain rfl := Option.some.inj heq
      split <;> simp_all
    case h_7 =>
      split <;> simp_all

variable {base element : JavaType} {args : List JavaType}

theorem ofHeldJson?_applied (hbase : ofHeldJson? held base.toJson = some base)
    (hargs : listOfHeldJson? held (listToJson args) = some args) :
    ofHeldJson? held (applied base args).toJson = some (applied base args) := by
  have hslots : Json.objectSlots ["base", "args"]
      (.obj [("base", base.toJson), ("args", .arr (listToJson args))]) =
      some [some base.toJson, some (.arr (listToJson args))] :=
    Json.objectSlots_obj rfl (by decide)
  rw [toJson, ofHeldJson?_taggedJson]
  simp [hslots, hbase, hargs]

theorem ofHeldJson?_array (dims : Nat) (helement : ofHeldJson? held element.toJson = some element) :
    ofHeldJson? held (array element dims).toJson = some (array element dims) := by
  have hslots : Json.objectSlots ["element", "dimensions"]
      (.obj [("element", element.toJson), ("dimensions", .num dims)]) =
      some [some element.toJson, some (.num (.ofNat dims))] :=
    Json.objectSlots_obj rfl (by decide)
  rw [toJson, ofHeldJson?_taggedJson]
  simp only [hslots, helement, Option.map_some]

theorem ofHeldJson?_unresolved : ofHeldJson? held unresolved.toJson = some unresolved := by
  have htag : (Json.obj [("kind", .str "Unknown")]).tagged? alternatives held =
      some ⟨"Unknown", none, held⟩ := rfl
  rw [toJson, ofHeldJson?]
  split
  · simp_all
  · rename_i t ht
    obtain rfl := Option.some.inj (htag.symm.trans ht)
    rfl

mutual

/-- A type is read back, also where it was held back. -/
theorem ofHeldJson?_toJson (held : Bool) : ∀ t : JavaType, ofHeldJson? held t.toJson = some t
  | plain name => ofHeldJson?_taggedJson "Raw" (.str name)
  | named name => ofHeldJson?_taggedJson "Id" (.str name)
  | applied base args =>
    ofHeldJson?_applied (ofHeldJson?_toJson held base) (listOfHeldJson?_listToJson held args)
  | array element dims => ofHeldJson?_array dims (ofHeldJson?_toJson held element)
  | unresolved => ofHeldJson?_unresolved

theorem listOfHeldJson?_listToJson (held : Bool) :
    ∀ ts : List JavaType, listOfHeldJson? held (listToJson ts) = some ts
  | [] => by rw [listToJson, listOfHeldJson?]
  | t :: ts => by
    rw [listToJson, listOfHeldJson?, ofHeldJson?_toJson held t, listOfHeldJson?_listToJson held ts]

end

theorem ofJson?_toJson (t : JavaType) : ofJson? t.toJson = some t := ofHeldJson?_toJson false t

mutual

theorem isReadable_toJson : ∀ t : JavaType, t.toJson.isReadable = true
  | plain _ => rfl
  | named _ => rfl
  | applied base args => by
    simp [toJson, taggedJson, Json.isReadable, Json.fieldsReadable, isReadable_toJson base,
      itemsReadable_listToJson args]
  | array element _ => by
    simp [toJson, taggedJson, Json.isReadable, Json.fieldsReadable, isReadable_toJson element]
  | unresolved => rfl

theorem itemsReadable_listToJson : ∀ ts : List JavaType, Json.itemsReadable (listToJson ts) = true
  | [] => rfl
  | t :: ts => by
    simp [listToJson, Json.itemsReadable, isReadable_toJson t, itemsReadable_listToJson ts]

end

end JavaType

/-! ### Members and declarations -/

theorem MemberKind.ofJson?_tag (k : MemberKind) : ofJson? (.str k.tag) = some k := by
  cases k <;> rfl

theorem Parameter.ofJson?_toJson (p : Parameter) : ofJson? p.toJson = some p := by
  rw [ofJson?, toJson, Json.slots_obj]
  · simp [JavaType.ofJson?_toJson, Json.optional, Json.str?, Json.bool?]
  · rfl
  · decide

theorem Member.ofJson?_toJson (m : Member) : ofJson? m.toJson = some m := by
  have hparameters : Json.nullable? (Json.list? Parameter.ofJson?)
      (Json.ofOption (fun ps => .arr (ps.map Parameter.toJson)) m.parameters) =
      some m.parameters :=
    Json.nullable?_ofOption (Json.list?_map Parameter.ofJson?_toJson) (fun _ => nofun) _
  rw [ofJson?, toJson, Json.slots_obj]
  · simp [JavaType.ofJson?_toJson, MemberKind.ofJson?_tag, hparameters, Json.nullable?_str,
      Json.list?_ofStrings, Json.optional, Json.str?]
  · rfl
  · decide

theorem TypeKind.ofJson?_tag (k : TypeKind) : ofJson? (.str k.tag) = some k := by
  cases k <;> rfl

theorem TypeDecl.ofJson?_toJson (d : TypeDecl) : ofJson? d.toJson = some d := by
  rw [ofJson?, toJson, Json.slots_obj]
  · simp [TypeKind.ofJson?_tag, Json.nullable?_str, Json.list?_ofStrings,
      Json.list?_map Member.ofJson?_toJson, Json.optional, Json.str?]
  · rfl
  · decide

theorem Model.ofJson?_toJson (m : Model) : ofJson? m.toJson = some m := by
  rw [ofJson?, toJson, Json.slots_obj]
  · simp [Json.list?_map TypeDecl.ofJson?_toJson, Json.optional]
  · rfl
  · decide

/-! ### Chains -/

theorem LinkKind.ofJson?_tag (k : LinkKind) : ofJson? (.str k.tag) = some k := by
  cases k <;> rfl

/-- A link is told by what it uses: the key it keeps is that of its member. -/
theorem Link.ofMember_eq (l : Link) : ofMember l.member l.kind l.type l.dims l.ofThis = l := by
  obtain ⟨member, kind, type, dims, ofThis, ⟨key⟩, hkey⟩ := l
  have hfn : key = fun _ => member.key := funext fun _ => hkey
  subst hfn
  rfl

theorem Link.ofJson?_toJson (l : Link) : ofJson? l.toJson = some l := by
  rw [ofJson?, toJson, Json.slots_obj]
  · simp [Member.ofJson?_toJson, LinkKind.ofJson?_tag, JavaType.ofJson?_toJson, Json.nat?,
      Json.bool?, ofMember_eq]
  · rfl
  · decide

theorem Chain.ofJson?_toJson (c : Chain) : ofJson? c.toJson = some c := by
  rw [ofJson?, toJson, Json.slots_obj]
  · simp [Json.list?_map Link.ofJson?_toJson, Json.nat?]
  · rfl
  · decide

/-! ### Limits and settings -/

/-- A duration is read as it is: there are no seconds among its nanoseconds. -/
theorem Duration.ofJson?_toJson (d : Duration) : ofJson? d.toJson = some d := by
  have hslots : Json.objectSlots ["secs", "nanos"]
      (.obj [("secs", .num d.secs), ("nanos", .num d.nanos)]) =
      some [some (.num d.secs), some (.num d.nanos)] :=
    Json.objectSlots_obj rfl (by decide)
  rw [toJson, ofJson?, hslots]
  simp [ofParts?, d.nanos_lt]

theorem Limits.ofJson?_toJson (l : Limits) : ofJson? l.toJson = some l := by
  rw [ofJson?, toJson, Json.slots_obj]
  · simp [Json.list?_ofStrings, Duration.ofJson?_toJson, Json.nat?]
  · rfl
  · decide

theorem Settings.ofJson?_toJson (s : Settings) : ofJson? s.toJson = some s := by
  rw [ofJson?, toJson, Json.slots_obj]
  · rfl
  · rfl
  · decide

/-! ### Requests -/

theorem Qualifier.ofHeldJson?_toJson (q : Qualifier) : ofHeldJson? q.toJson = some q := by
  cases q <;>
    simp [toJson, ofHeldJson?, JavaType.tagged?_taggedJson, JavaType.ofHeldJson?_toJson, Json.str?]

theorem Qualifier.isReadable_toJson (q : Qualifier) : q.toJson.isReadable = true := by
  cases q <;>
    simp [toJson, JavaType.taggedJson, Json.isReadable, Json.fieldsReadable,
      JavaType.isReadable_toJson]

theorem Place.isReadable_toJson (p : Place) : p.toJson.isReadable = true := by
  cases p <;>
    simp [toJson, Json.isReadable, Json.fieldsReadable, JavaType.isReadable_toJson,
      Qualifier.isReadable_toJson]

theorem Place.ofJson?_toJson (p : Place) : ofJson? p.toJson = some p := by
  have hreadable := isReadable_toJson p
  unfold ofJson?
  rw [hreadable]
  cases p <;>
    simp [toJson, Json.objectSlots, Json.fieldCount, Json.field?, fieldName?, ofField?,
      JavaType.ofHeldJson?_toJson, Qualifier.ofHeldJson?_toJson]

theorem Request.ofJson?_toJson (r : Request) : ofJson? r.toJson = some r := by
  have hexpected : Json.nullable? JavaType.ofJson? (Json.ofOption JavaType.toJson r.expected) =
      some r.expected :=
    Json.nullable?_ofOption JavaType.ofJson?_toJson JavaType.toJson_ne_null _
  rw [ofJson?, toJson, Json.slots_obj]
  · simp [Place.ofJson?_toJson, Json.list?_map Member.ofJson?_toJson, hexpected, Json.optional,
      Json.str?]
  · rfl
  · decide

end CallChain
