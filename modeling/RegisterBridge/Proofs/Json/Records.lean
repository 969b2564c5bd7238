import RegisterBridge.Json.Decode
import RegisterBridge.Proofs.Json.ReadBack

namespace RegisterBridge

namespace OrderedMap

theorem eq_of_entries {κ α : Type} {left right : OrderedMap κ α}
    (same : left.entries = right.entries) : left = right := by
  obtain ⟨_, _⟩ := left
  subst same
  rfl

variable {κ α : Type} [DecidableEq κ]

/-- A new key comes last. -/
theorem replace_of_not_mem {entries : List (κ × α)} {key : κ}
    (fresh : key ∉ entries.map Prod.fst) (value : α) :
    replace entries key value = entries ++ [(key, value)] := by
  induction entries with
  | nil => rfl
  | cons entry rest ih =>
    rw [List.map_cons, List.mem_cons, not_or] at fresh
    rw [replace, if_neg fun same => fresh.1 same.symm, ih fresh.2, List.cons_append]

/-- A map is made again of its entries, in their order. -/
theorem ofList_entries (map : OrderedMap κ α) : ofList map.entries = map := by
  have entries : ∀ (later : List (κ × α)) (earlier : OrderedMap κ α),
      ((earlier.entries ++ later).map Prod.fst).Nodup →
        (later.foldl (fun map entry => map.insert entry.1 entry.2) earlier).entries =
          earlier.entries ++ later := by
    intro later
    induction later with
    | nil => exact fun earlier _ => (List.append_nil _).symm
    | cons entry later ih =>
      intro earlier distinct
      have fresh : entry.1 ∉ earlier.entries.map Prod.fst := by
        rw [List.map_append, List.map_cons] at distinct
        exact fun old => (List.nodup_append.mp distinct).2.2 _ old _ List.mem_cons_self rfl
      have added : (earlier.insert entry.1 entry.2).entries = earlier.entries ++ [entry] :=
        replace_of_not_mem fresh entry.2
      rw [List.foldl_cons, ih, added, List.append_assoc, List.singleton_append]
      rwa [added, List.append_assoc, List.singleton_append]
  exact eq_of_entries (entries map.entries empty map.distinct)

end OrderedMap

theorem lookup_eq_none_of_not_mem {α : Type} {entries : List (String × α)} {name : String}
    (absent : name ∉ entries.map Prod.fst) : entries.lookup name = none :=
  List.lookup_eq_none_iff.mpr fun _ member =>
    bne_iff_ne.mpr fun same => absent (same ▸ List.mem_map_of_mem member)

theorem rereadItems_eq_map (items : List Json) : Json.rereadItems items = items.map Json.reread := by
  induction items with
  | nil => rfl
  | cons item items ih => rw [Json.rereadItems, ih, List.map_cons]

theorem rereadMembers_eq_map (members : List (String × Json)) :
    Json.rereadMembers members = members.map fun member => (some member.1, member.2.reread) := by
  induction members with
  | nil => rfl
  | cons member members ih => rw [Json.rereadMembers, ih, List.map_cons]

theorem mapM_map_eq_some_iff {α β : Type} {encode : α → β} {decode : β → Option α} {items : List α} :
    (items.map encode).mapM decode = some items ↔
      ∀ item ∈ items, decode (encode item) = some item := by
  induction items with
  | nil => simp
  | cons item items ih =>
    simp only [List.map_cons, List.mapM_cons, List.forall_mem_cons, ← ih]
    cases decode (encode item) <;> cases (items.map encode).mapM decode <;> simp

namespace JsonSyntax

variable {α : Type}

theorem list?_reread_eq_some_iff {encode : α → Json} {decode : JsonSyntax → Option α}
    {items : List α} :
    list? decode (Json.array (items.map encode)).reread = some items ↔
      ∀ item ∈ items, decode (encode item).reread = some item := by
  rw [Json.reread, rereadItems_eq_map, list?, List.map_map, mapM_map_eq_some_iff]
  rfl

theorem map?_reread {encode : α → Json} {decode : JsonSyntax → Option α}
    (decodes : ∀ x, decode (encode x).reread = some x) (map : OrderedMap String α) :
    map? decode (Json.object (map.entries.map fun entry => (entry.1, encode entry.2))).reread =
      some map := by
  have entries : ((map.entries.map fun entry => (some entry.1, (encode entry.2).reread)).mapM
      fun member => do return (← member.1, ← decode member.2)) = some map.entries := by
    refine mapM_map_eq_some_iff.mpr fun entry _ => ?_
    simp only [decodes]
    rfl
  rw [Json.reread, rereadMembers_eq_map, List.map_map, map?]
  refine (congrArg (· >>= _) entries).trans ?_
  exact congrArg some map.ofList_entries

theorem text?_reread (text : String) : text? (Json.string text).reread = some text :=
  rfl

/-- Only numbers that read back are decoded again. -/
theorem binary64?_reread_eq_some_iff {x : Binary64} :
    binary64? (Json.number (.real x)).reread = some x ↔ x.ReadsBack := by
  rw [Json.reread, Binary64.ReadsBack]
  cases isFinite : (JsonNumber.real x).isFinite with
  | false =>
    -- It is written as `null`, which is no number.
    have unread : (JsonNumber.real x).reread? = none := by
      rw [JsonNumber.reread?, write_of_not_isFinite (by simp [isFinite])]
      rfl
    simp [unread, binary64?]
  | true =>
    rw [if_pos rfl]
    cases reread : (JsonNumber.real x).reread? with
    | none => simp [binary64?]
    | some n =>
      obtain ⟨y, rfl⟩ := JsonNumber.exists_of_reread?_real isFinite reread
      simp [binary64?]

end JsonSyntax

namespace Json

/-- The members of a record, of which some fields may be absent. -/
def members (fields : List (String × Option Json)) : List (String × Json) :=
  fields.filterMap fun field => field.2.map (field.1, ·)

theorem members_append (fields others : List (String × Option Json)) :
    members (fields ++ others) = members fields ++ members others :=
  List.filterMap_append

theorem optionalMember_eq_members {α : Type} (name : String) (encode : α → Json) (x : Option α) :
    optionalMember name encode x = members [(name, x.map encode)] := by
  cases x <;> rfl

theorem keys_members_sublist (fields : List (String × Option Json)) :
    ((members fields).map Prod.fst).Sublist (fields.map Prod.fst) := by
  induction fields with
  | nil => exact .slnil
  | cons field fields ih =>
    obtain ⟨name, _ | value⟩ := field
    · exact ih.cons name
    · exact ih.cons_cons name

theorem lookup_members {fields : List (String × Option Json)}
    (distinct : (fields.map Prod.fst).Nodup) (name : String) :
    (members fields).lookup name = (fields.lookup name).join := by
  induction fields with
  | nil => rfl
  | cons field fields ih =>
    obtain ⟨key, value⟩ := field
    rw [List.map_cons, List.nodup_cons] at distinct
    have others := ih distinct.2
    by_cases same : name = key
    · subst same
      rw [List.lookup_cons_self, Option.join_some]
      cases value with
      | none =>
        exact lookup_eq_none_of_not_mem fun listed =>
          distinct.1 ((keys_members_sublist fields).subset listed)
      | some value => exact List.lookup_cons_self
    · have passed : (name == key) = false := beq_eq_false_iff_ne.mpr same
      rw [List.lookup_cons, passed, ← others]
      cases value with
      | none => rfl
      | some value =>
        change ((key, value) :: members fields).lookup name = _
        rw [List.lookup_cons, passed]

end Json

namespace JsonSyntax

theorem lookup_map_reread (members : List (String × Json)) (name : String) :
    (members.map fun member => (member.1, member.2.reread)).lookup name =
      (members.lookup name).map Json.reread := by
  induction members with
  | nil => rfl
  | cons member members ih =>
    rw [List.map_cons, List.lookup_cons, List.lookup_cons, ih]
    cases name == member.1 <;> rfl

/-- Fields under their own names, each but once, are all collected. -/
theorem collectFields_reread {names : List (List String)} {members : List (String × Json)}
    (own : ∀ name ∈ members.map Prod.fst,
      (names.find? (·.contains name)).bind List.head? = some name)
    (distinct : (members.map Prod.fst).Nodup) :
    collectFields names (Json.rereadMembers members) =
      some (members.map fun member => (member.1, member.2.reread)) := by
  induction members with
  | nil => rfl
  | cons member members ih =>
    rw [List.map_cons, List.forall_mem_cons] at own
    rw [List.map_cons, List.nodup_cons] at distinct
    have fresh : (members.map fun member => (member.1, member.2.reread)).lookup member.1 = none := by
      rw [lookup_map_reread, lookup_eq_none_of_not_mem distinct.1]
      rfl
    simp only [Json.rereadMembers, collectFields, ih own.2 distinct.2, Option.bind_eq_bind,
      Option.bind_some, own.1, fresh, Option.isSome_none, Bool.false_eq_true, if_false,
      Option.pure_def, List.map_cons]

theorem heads_sublist_flatten (names : List (List String)) :
    (names.filterMap List.head?).Sublist names.flatten := by
  induction names with
  | nil => exact .slnil
  | cons row names ih =>
    cases row with
    | nil => exact ih
    | cons first aliases => exact (ih.trans (List.sublist_append_right aliases _)).cons_cons first

/-- Where no name is given twice, the first name of a field finds this field. -/
theorem find?_head {names : List (List String)} (distinct : names.flatten.Nodup) :
    ∀ name ∈ names.filterMap List.head?,
      (names.find? (·.contains name)).bind List.head? = some name := by
  induction names with
  | nil => nofun
  | cons row names ih =>
    obtain ⟨-, others, apart⟩ := List.nodup_append.mp distinct
    cases row with
    | nil => exact ih others
    | cons first aliases =>
      refine List.forall_mem_cons.mpr ⟨by simp, fun name later => ?_⟩
      have elsewhere : name ∉ first :: aliases := fun here =>
        apart name here name ((heads_sublist_flatten names).subset later) rfl
      rw [List.find?_cons_of_neg (by simpa using elsewhere)]
      exact ih others name later

/-- A record is read from its members: what is found under a name is what was written there. -/
theorem record?_reread (names : List (List String)) (fields : List (String × Option Json))
    (own : names.filterMap List.head? = fields.map Prod.fst) (distinct : names.flatten.Nodup) :
    ∃ r : Record, record? names (Json.object (Json.members fields)).reread = some r ∧
      ∀ name, r.fields.lookup name = (fields.lookup name).join.map Json.reread := by
  have keys := Json.keys_members_sublist fields
  have heads := own ▸ (heads_sublist_flatten names).nodup distinct
  refine ⟨⟨(Json.members fields).map fun member => (member.1, member.2.reread), false⟩, ?_,
    fun name => ?_⟩
  · rw [Json.reread, record?, collectFields_reread
      (fun name listed => find?_head distinct name (own ▸ keys.subset listed)) (keys.nodup heads)]
    rfl
  · rw [← Json.lookup_members heads, lookup_map_reread]

/-- An optional field of a kind that knows no `null` is what was written under its name. -/
theorem Record.optional?_eq_some_iff {r : Record} {name : String} {encode : α → Json} {x : Option α}
    (found : r.fields.lookup name = (x.map encode).map Json.reread)
    {decode : JsonSyntax → Option α} (noNull : decode null = none) :
    r.optional? name decode = some x ↔ ∀ v ∈ x, decode (encode v).reread = some v := by
  rw [optional?, orDefault?, found]
  cases x with
  | none => simp
  | some v =>
    cases written : (encode v).reread <;> simp_all [nullable?]

theorem Record.optional?_text {r : Record} {name : String} {x : Option String}
    (found : r.fields.lookup name = (x.map Json.string).map Json.reread) :
    r.optional? name text? = some x :=
  (optional?_eq_some_iff found rfl).mpr fun text _ => text?_reread text

theorem Record.optional?_number {r : Record} {name : String} {x : Option Binary64}
    (found : r.fields.lookup name = (x.map fun x => Json.number (.real x)).map Json.reread) :
    r.optional? name binary64? = some x ↔ ∀ v ∈ x.toList, v.ReadsBack := by
  rw [optional?_eq_some_iff found rfl]
  simp only [Option.mem_toList, Option.mem_def, binary64?_reread_eq_some_iff]

/-- A field may be skipped if it has its default. -/
theorem Record.orDefault?_eq_some {r : Record} {name : String} {skipped : Bool} {json : Json}
    (found : r.fields.lookup name = (if skipped then none else some json).map Json.reread)
    {x default : α} {decode : JsonSyntax → Option α} (decodes : decode json.reread = some x)
    (defaults : skipped = true → x = default) : r.orDefault? name default decode = some x := by
  rw [orDefault?, found]
  cases skipped with
  | true => exact congrArg some (defaults rfl).symm
  | false => exact decodes

end JsonSyntax

end RegisterBridge
