import TxLoad.Message.Wire
import TxLoad.Proofs.Json.RoundTrip

namespace TxLoad

/-!
# Messages survive their way

A message that is written and read again is the same message, whatever its strings and words are,
and its text is a single line.

* `Json.record?_zip`: a record that is written with all its fields is read with all its fields.
* `Config.ofJson?_toJson`, `Report.ofJson?_toJson`, `Message.ofJson?_toJson`: reading a value undoes
  making it.
* `Message.ofWire?_wire`: reading a text undoes writing it.
* `Message.isPrintable_wire`: the text of a message is a single line.
-/

namespace Json

/-! ### Records -/

variable {members : List (String × Json)} {name : String} {v : Json}

theorem valuesOf_eq_nil (h : name ∉ members.map (·.1)) : valuesOf name members = [] := by
  refine List.filterMap_eq_nil_iff.mpr fun m hm => if_neg fun heq => h ?_
  exact List.mem_map.mpr ⟨m, hm, heq⟩

/-- A member whose name no other one has is the value of its field. -/
theorem field?_of_mem (hnodup : (members.map (·.1)).Nodup) (hmem : (name, v) ∈ members) :
    field? members name = some (some v) := by
  have hvalues : valuesOf name members = [v] := by
    induction members with
    | nil => cases hmem
    | cons m members ih =>
      obtain ⟨hnot, hnodup⟩ := List.nodup_cons.mp hnodup
      rcases List.mem_cons.mp hmem with rfl | hmem
      · have hrest := valuesOf_eq_nil hnot
        simp only [valuesOf] at hrest ⊢
        rw [List.filterMap_cons, if_pos rfl, hrest]
      · have hne : m.1 ≠ name := fun heq =>
          hnot (List.mem_map.mpr ⟨_, hmem, heq.symm⟩)
        have hrest := ih hnodup hmem
        simp only [valuesOf] at hrest ⊢
        rw [List.filterMap_cons, if_neg hne, hrest]
  rw [field?, hvalues]

/-- Reading name by name gives the values, if each name has its own. -/
theorem mapM_of_zip {α β γ : Type} {f : α → Option γ} {g : β → γ} {names : List α}
    {values : List β} (hlength : names.length = values.length)
    (h : ∀ p ∈ names.zip values, f p.1 = some (g p.2)) :
    names.mapM f = some (values.map g) := by
  induction names generalizing values with
  | nil =>
    rw [List.eq_nil_of_length_eq_zero hlength.symm]
    rfl
  | cons name names ih =>
    obtain ⟨v, values, rfl⟩ := List.exists_cons_of_length_eq_add_one hlength.symm
    obtain ⟨hfirst, hrest⟩ := List.forall_mem_cons.mp h
    have hnext := ih (Nat.succ.inj hlength) hrest
    have hfirst : f name = some (g v) := hfirst
    simp [List.mapM_cons, hfirst, hnext]

/-- **Records.** What is written with all its fields is read with all its fields. -/
theorem record?_zip {names : List String} {values : List Json} (hnodup : names.Nodup)
    (hlength : names.length = values.length) :
    record? names (.object (names.zip values)) = some ⟨false, values.map some⟩ := by
  have hread : names.mapM (field? (names.zip values)) = some (values.map some) := by
    refine mapM_of_zip hlength fun p hp => field?_of_mem ?_ hp
    rwa [List.map_fst_zip (Nat.le_of_eq hlength)]
  rw [record?, hread]
  rfl

theorem record?_single (name : String) (v : Json) :
    record? [name] (.object [(name, v)]) = some ⟨false, [some v]⟩ :=
  @record?_zip [name] [v] (List.pairwise_singleton _ name) rfl

/-! ### Fields -/

theorem nullable?_nullableJson {α : Type} (read : Json → Option α) (write : α → Json)
    (hread : ∀ a, read (write a) = some a) (hnull : ∀ a, write a ≠ .null) (o : Option α) :
    nullable? read (Config.nullableJson write o) = some o := by
  cases o with
  | none => rfl
  | some a =>
    rw [Config.nullableJson, nullable?, hread]
    · rfl
    · exact hnull a

/-- A field that is there is read and handed on. -/
theorem orDefault_bind {α β : Type} (read : Json → Option α) {v : Json} {a : α}
    (h : read v = some a) (d : α) (f : α → Option β) :
    (orDefault read d (some v) >>= f) = f a := by
  rw [orDefault, h]
  rfl

theorem strings?_map (texts : List String) :
    strings? (.array (texts.map .string)) = some texts := by
  rw [strings?]
  induction texts with
  | nil => rfl
  | cons text texts ih => simp [List.mapM_cons, ih, string?]

/-! ### Plain values -/

@[simp] theorem isPlainItems_strings (texts : List String) :
    isPlainItems (texts.map .string) = true := by
  induction texts with
  | nil => rfl
  | cons text texts ih => exact ih

@[simp] theorem depthItems_strings (texts : List String) :
    depthItems (texts.map .string) = 0 := by
  induction texts with
  | nil => rfl
  | cons text texts ih => rw [List.map_cons, depthItems, ih]; rfl

mutual

/-- Every piece of a plain value has a value. -/
theorem isSound_of_isPlain : ∀ v : Json, v.isPlain = true → v.isSound = true
  | .null, _ | .bool _, _ | .string _, _ | .number (.word _), _ => rfl
  | .array vs, h => isSoundItems_of_isPlain vs h
  | .object ms, h => isSoundMembers_of_isPlain ms h

theorem isSoundItems_of_isPlain : ∀ vs : List Json, isPlainItems vs = true →
    isSoundItems vs = true
  | [], _ => rfl
  | v :: vs, h => by
    obtain ⟨hv, hvs⟩ := Bool.and_eq_true_iff.mp h
    exact Bool.and_eq_true_iff.mpr ⟨isSound_of_isPlain v hv, isSoundItems_of_isPlain vs hvs⟩

theorem isSoundMembers_of_isPlain : ∀ ms : List (String × Json), isPlainMembers ms = true →
    isSoundMembers ms = true
  | [], _ => rfl
  | (_, v) :: ms, h => by
    obtain ⟨hv, hms⟩ := Bool.and_eq_true_iff.mp h
    exact Bool.and_eq_true_iff.mpr ⟨isSound_of_isPlain v hv, isSoundMembers_of_isPlain ms hms⟩

end

end Json

/-! ### Configurations and reports -/

namespace Config

theorem isPlain_toJson (cfg : Config) : cfg.toJson.isPlain = true := by
  have hcount : (nullableJson wordJson cfg.count).isPlain = true := by cases cfg.count <;> rfl
  have houtput : (nullableJson .string cfg.statsOutput).isPlain = true := by
    cases cfg.statsOutput <;> rfl
  simp [toJson, fieldNames, fieldValues, Json.isPlain, Json.isPlainMembers, wordJson, hcount,
    houtput]

theorem depth_toJson (cfg : Config) : cfg.toJson.depth = 2 := by
  have hcount : (nullableJson wordJson cfg.count).depth = 0 := by cases cfg.count <;> rfl
  have houtput : (nullableJson .string cfg.statsOutput).depth = 0 := by
    cases cfg.statsOutput <;> rfl
  simp [toJson, fieldNames, fieldValues, Json.depth, Json.depthMembers, wordJson, hcount,
    houtput]

theorem ofJson?_toJson (emptyIsNull : Bool) (cfg : Config) :
    ofJson? emptyIsNull cfg.toJson = some cfg := by
  have hrecord : cfg.toJson.record? fieldNames = some ⟨false, cfg.fieldValues.map some⟩ :=
    Json.record?_zip (by decide) rfl
  have hword : ∀ n, Json.word? (wordJson n) = some n := fun _ => rfl
  have hstring : ∀ s, Json.string? (.string s) = some s := fun _ => rfl
  have hbool : ∀ b, Json.bool? (.bool b) = some b := fun _ => rfl
  have hcount : Json.nullable? Json.word? (nullableJson wordJson cfg.count) = some cfg.count :=
    Json.nullable?_nullableJson _ _ hword (fun _ h => by cases h) _
  have houtput : Json.nullable? Json.string? (nullableJson .string cfg.statsOutput) =
      some cfg.statsOutput :=
    Json.nullable?_nullableJson _ _ hstring (fun _ h => by cases h) _
  have hmode : (Json.variant? emptyIsNull (.string cfg.broadcastMode.name)).bind
      BroadcastMode.ofName? = some cfg.broadcastMode := BroadcastMode.ofName?_name _
  have hmethod : (Json.variant? emptyIsNull (.string cfg.selectMethod.name)).bind
      SelectMethod.ofName? = some cfg.selectMethod := SelectMethod.ofName?_name _
  rw [ofJson?, hrecord, Option.bind_some]
  show ofValues? emptyIsNull (cfg.fieldValues.map some) = some cfg
  -- Each field is handed on before the fields behind it are looked at.
  simp only [fieldValues, List.map_cons, List.map_nil, ofValues?,
    ↓Json.orDefault_bind _ (hword _), ↓Json.orDefault_bind _ (hstring _),
    ↓Json.orDefault_bind _ (hbool _), ↓Json.orDefault_bind _ hcount,
    ↓Json.orDefault_bind _ houtput, ↓Json.orDefault_bind _ (Json.strings?_map _),
    ↓Json.orDefault_bind (fun v => (Json.variant? emptyIsNull v).bind BroadcastMode.ofName?) hmode,
    ↓Json.orDefault_bind (fun v => (Json.variant? emptyIsNull v).bind SelectMethod.ofName?) hmethod,
    Option.pure_def]

end Config

namespace Report

theorem isPlain_toJson (r : Report) : r.toJson.isPlain = true := rfl

theorem depth_toJson (r : Report) : r.toJson.depth = 1 := rfl

theorem ofJson?_toJson (r : Report) : ofJson? r.toJson = some r := by
  have hrecord : r.toJson.record? fieldNames = some ⟨false, _⟩ :=
    Json.record?_zip (by decide) rfl
  rw [ofJson?, hrecord]
  rfl

end Report

/-! ### Messages -/

namespace Message

/-- The value of a message is plain. -/
theorem isPlain_toJson (m : Message) : m.toJson.isPlain = true := by
  cases m with
  | hello id => cases id <;> rfl
  | config cfg => simp [toJson, content, Json.isPlain, Json.isPlainMembers, cfg.isPlain_toJson]
  | statsReport r => simp [toJson, content, Json.isPlain, Json.isPlainMembers, r.isPlain_toJson]
  | _ => rfl

/-- The value of a message may be kept as a whole. -/
theorem isAdmissible_toJson (m : Message) : m.toJson.isAdmissible = true := by
  have hdepth : m.toJson.depth ≤ 3 := by
    cases m with
    | hello id =>
      cases id <;> simp [toJson, content, Json.depth, Json.depthMembers, Config.nullableJson,
        Config.wordJson]
    | config cfg => simp [toJson, content, Json.depth, Json.depthMembers, cfg.depth_toJson]
    | statsReport r => simp [toJson, content, Json.depth, Json.depthMembers, r.depth_toJson]
    | _ => simp [toJson, content, Json.depth, Json.depthMembers]
  rw [Json.isAdmissible, Json.isSound_of_isPlain _ m.isPlain_toJson, Bool.true_and,
    decide_eq_true_eq]
  exact Nat.le_trans hdepth (by decide)

/-- The content of a message has no member that names a kind. -/
theorem filter_content (m : Message) : m.content.filter (fun p => p.1 ≠ "type") = m.content := by
  cases m <;> rfl

theorem field?_type (m : Message) :
    Json.field? (("type", .string m.kind) :: m.content) "type" = some (some (.string m.kind)) := by
  have hnodup : ((("type", Json.string m.kind) :: m.content).map (·.1)).Nodup := by
    cases m <;> simp [content]
  exact Json.field?_of_mem hnodup List.mem_cons_self

/-- The only field of a content is read. -/
theorem soleField?_of_single (name : String) (v : Json) :
    soleField? name (.object [(name, v)]) = some v := by
  rw [soleField?, Json.record?_single]
  rfl

theorem ofContent?_content (m : Message) : ofContent? m.kind (.object m.content) = some m := by
  cases m with
  | hello id =>
    have hid : Json.nullable? Json.word? (Config.nullableJson Config.wordJson id) = some id :=
      Json.nullable?_nullableJson _ Config.wordJson (fun _ => rfl) (fun _ h => by cases h) _
    simp [ofContent?, kind, content, helloId?, Json.record?_single, hid]
  | config cfg => simp [ofContent?, kind, content, soleField?_of_single, cfg.ofJson?_toJson]
  | statsReport r => simp [ofContent?, kind, content, soleField?_of_single, r.ofJson?_toJson]
  | _ => simp [ofContent?, kind, content, soleField?_of_single, Json.string?, isBare]

/-- Reading the value of a message undoes making it. -/
theorem ofJson?_toJson (m : Message) : ofJson? m.toJson = some m := by
  have hadmissible := m.isAdmissible_toJson
  rw [toJson] at hadmissible ⊢
  rw [ofJson?, if_pos hadmissible]
  simp only [m.field?_type]
  rw [List.filter_cons_of_neg (by simp), m.filter_content]
  exact m.ofContent?_content

/-- **Round trip.** Reading the text of a message undoes writing it. -/
theorem ofWire?_wire (m : Message) : ofWire? m.wire = some m := by
  rw [ofWire?, wire, Json.parse_render m.isPlain_toJson]
  exact m.ofJson?_toJson

/-- **One line.** The text of a message has no control characters. -/
theorem isPrintable_wire (m : Message) : Json.IsPrintable m.wire.toList := by
  rw [wire, Json.render, String.toList_ofList]
  exact Json.isPrintable_renderChars _ m.isPlain_toJson

end Message

end TxLoad
