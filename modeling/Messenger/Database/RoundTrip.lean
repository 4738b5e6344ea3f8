import Messenger.Database.Records
import Messenger.Lib.IsoTime

/-! The rows that the persisted models are stored in: which instances come back from them as they were. -/

namespace Messenger.Records
open IsoTime NamedValues

/-! ### The models and their statements -/

def FieldType.column : FieldType → ColumnType
  | .uuid | .optionalUuid => .uuid
  | .str => .text
  | .bool => .boolean
  | .datetime => .timestamptz

/-- The columns are the fields, and none may be empty; each is bound to the argument that has its name. -/
structure Matches (cls : ModelClass) (i : Insert) : Prop where
  nodup : cls.fieldNames.Nodup
  arity : i.parameters = cls.fieldNames.length
  bound : ∀ c ∈ i.into.columns,
    ((i.columns.zip i.values).lookup c.name).bind (fun n => cls.fieldNames[n - 1]?) = some c.name
  types : ∀ c ∈ i.into.columns, ∃ f ∈ cls.annotations, f.name = c.name ∧ f.type.column = c.type
  covers : ∀ name ∈ cls.fieldNames, name ∈ i.into.columns.map Column.name
  notNull : ∀ c ∈ i.into.columns, c.notNull

theorem PersistedModel.matches (model : PersistedModel) : Matches model.cls model.insert := by
  cases model <;>
    exact ⟨by decide, by decide, by decide, by decide, by decide, by decide⟩

/-- The statement, given the arguments of the instance, adds a row to its table unless that is refused.
Each column of the row holds the field of the same name, and what the row gives back is the instance. -/
def StoresItself (pg : Codec) (i : Insert) {cls : ModelClass} (m : Instance cls) : Prop :=
  ∃ row : pg.Row, row.map Prod.fst = i.into.columns ∧
    (∀ now refused rows, pg.execute now refused rows i (cls.toArgs m.attrs) =
      match refused row with
      | some e => .error e
      | none => .ok (rows ++ [row], if i.returning then some (pg.record row) else none)) ∧
    Mirrors (pg.record row) m.attrs ∧
    (∀ env, cls.fromRecord env (pg.record row) = .ok m.attrs) ∧
    cls.updateFromRecord m.attrs (pg.record row) = m.attrs

namespace Instance

variable {cls : ModelClass} (m : Instance cls)

def Kept (pg : Codec) (i : Insert) : Prop :=
  ∀ c ∈ i.into.columns, ∀ v, m.attrs c.name = some v → v ≠ .none ∧ pg.Keeps c.type v

def row (pg : Codec) (i : Insert) : pg.Row :=
  i.into.columns.map fun c => (c, (m.attrs c.name).bind (pg.encode c.type))

theorem row_columns {pg : Codec} {i : Insert} : (m.row pg i).map Prod.fst = i.into.columns := by
  simp [row, Function.comp_def]

end Instance

namespace Matches

variable {pg : Codec} {cls : ModelClass} {i : Insert} (h : Matches cls i) (m : Instance cls)
include h

theorem cell_eq (now : Timestamp) {c : Column} (hc : c ∈ i.into.columns) {v : Value}
    (hv : m.attrs c.name = some v) : pg.cell now i (cls.toArgs m.attrs) c = pg.bindArg c v := by
  obtain ⟨n, hn, hname⟩ := Option.bind_eq_some_iff.mp (h.bound c hc)
  rw [Codec.cell, hn]
  simp only [m.getElem?_toArgs h.nodup hname, hv]

theorem exists_attr {c : Column} (hc : c ∈ i.into.columns) : ∃ v, m.attrs c.name = some v := by
  obtain ⟨f, hf, hname, -⟩ := h.types c hc
  exact Option.isSome_iff_exists.mp ((m.isSome_iff _).mpr (hname ▸ List.mem_map_of_mem hf))

theorem row_spec (hkept : m.Kept pg i) {cx : Column × Option pg.Stored} (hcx : cx ∈ m.row pg i) :
    ∃ v s, cx.1 ∈ i.into.columns ∧ m.attrs cx.1.name = some v ∧ pg.bindArg cx.1 v = .ok (some s) ∧
      pg.decode cx.1.type s = v ∧ cx.2 = some s := by
  obtain ⟨c, hc, rfl⟩ := List.mem_map.mp hcx
  obtain ⟨v, hv⟩ := h.exists_attr m hc
  obtain ⟨hne, s, hs, hback⟩ := hkept c hc v hv
  refine ⟨v, s, hc, hv, ?_, hback, by simp [hv, hs]⟩
  rw [Codec.bindArg_of_ne_none hne, hs]

theorem makes (hkept : m.Kept pg i) (now : Timestamp) :
    Codec.Makes pg now i (cls.toArgs m.attrs) (m.row pg i) where
  arity := (m.length_toArgs h.nodup).trans h.arity.symm
  columns := m.row_columns
  cells cx hcx := by
    obtain ⟨v, s, hc, hv, hbind, -, hx⟩ := h.row_spec m hkept hcx
    rw [h.cell_eq m now hc hv, hbind, hx]
  notNull cx hcx _ := by
    obtain ⟨v, s, -, -, -, -, hx⟩ := h.row_spec m hkept hcx
    rw [hx, Option.isSome_some]

theorem mirrors (hkept : m.Kept pg i) : Mirrors (pg.record (m.row pg i)) m.attrs where
  agrees kv hkv := by
    obtain ⟨⟨c, x⟩, hcx, rfl⟩ := List.mem_map.mp hkv
    obtain ⟨v, s, -, hv, -, hback, rfl⟩ := h.row_spec m hkept hcx
    simpa [hback] using hv
  covers name hname := by
    have := h.covers name ((m.isSome_iff name).mp hname)
    simpa [Codec.record, Instance.row, Function.comp_def] using this

/-- A row that was made of the instance and mirrors it has kept each of its fields. -/
theorem kept_of_makes {row : pg.Row} {now : Timestamp}
    (hmakes : Codec.Makes pg now i (cls.toArgs m.attrs) row)
    (hmirrors : Mirrors (pg.record row) m.attrs) : m.Kept pg i := by
  intro c hc v hv
  obtain ⟨⟨c, x⟩, hcx, rfl⟩ := List.mem_map.mp (hmakes.columns.symm ▸ hc)
  have hcell := (h.cell_eq m now hc hv).symm.trans (hmakes.cells _ hcx)
  obtain ⟨s, rfl⟩ := Option.isSome_iff_exists.mp (hmakes.notNull _ hcx (h.notNull c hc))
  have hne : v ≠ .none := by
    rintro rfl
    cases hcell
  have hback : m.attrs c.name = some (pg.decode c.type s) :=
    hmirrors.agrees (c.name, _) (List.mem_map_of_mem hcx)
  rw [Codec.bindArg_of_ne_none hne] at hcell
  split at hcell
  · next s' hs =>
    cases hcell
    exact ⟨hne, s, hs, Option.some_injective _ (hback.symm.trans hv)⟩
  · cases hcell

theorem storesItself_iff : StoresItself pg i m ↔ m.Kept pg i := by
  constructor
  · rintro ⟨row, -, hexecute, hmirrors, -⟩
    exact h.kept_of_makes m (Codec.makes_of_execute (hexecute 0 (fun _ => none) [])) hmirrors
  · intro hkept
    have hmirrors := h.mirrors m hkept
    exact ⟨m.row pg i, m.row_columns, fun now _ _ => (h.makes m hkept now).execute_eq, hmirrors,
      Instance.fromRecord_eq hmirrors, Instance.updateFromRecord_eq hmirrors⟩

end Matches

/-! ### What comes back -/

/-- `datetime.min` and `datetime.max`, which stand for the infinite timestamps. -/
def IsInfinite (t : Timestamp) : Prop := t = origin ∨ t = origin + 3652059 * microsecondsPerDay - 1

instance (t : Timestamp) : Decidable (IsInfinite t) := inferInstanceAs (Decidable (_ ∨ _))

def Value.Timely : Value → Prop
  | .datetime t => InRange t
  | .naive t => IsInfinite t
  | _ => True

instance : (v : Value) → Decidable v.Timely
  | .datetime t => inferInstanceAs (Decidable (InRange t))
  | .naive t => inferInstanceAs (Decidable (IsInfinite t))
  | .none | .uuid _ | .str _ | .bool _ => instDecidableTrue

/-- A `timestamptz` that is finite comes back as a `datetime` with an offset, and a text that is accepted
comes back as it is. -/
structure Codec.Documented (pg : Codec) : Prop where
  uuid : ∀ u, pg.Keeps .uuid (.uuid u)
  boolean : ∀ b, pg.Keeps .boolean (.bool b)
  text : ∀ x, (pg.encode .text (.str x)).isSome → pg.Keeps .text (.str x)
  datetime : ∀ t, pg.Keeps .timestamptz (.datetime t) ↔ InRange t
  naive : ∀ t, pg.Keeps .timestamptz (.naive t) ↔ IsInfinite t

def Codec.AcceptsTexts (pg : Codec) {cls : ModelClass} (m : Instance cls) : Prop :=
  ∀ name x, m.attrs name = some (.str x) → (pg.encode .text (.str x)).isSome

def Instance.Timely {cls : ModelClass} (m : Instance cls) : Prop :=
  ∀ name v, m.attrs name = some v → v.Timely

section

variable {pg : Codec}

theorem FieldType.Admits.keeps_iff {type : FieldType} {v : Value} (h : type.Admits v)
    (hpg : pg.Documented) (htext : ∀ x, v = .str x → (pg.encode .text (.str x)).isSome)
    (hv : v ≠ .none) : pg.Keeps type.column v ↔ v.Timely := by
  cases type <;> cases v <;> try exact h.elim
  case uuid.uuid u | optionalUuid.uuid u => exact iff_of_true (hpg.uuid u) trivial
  case optionalUuid.none => exact absurd rfl hv
  case str.str x => exact iff_of_true (hpg.text x (htext x rfl)) trivial
  case bool.bool b => exact iff_of_true (hpg.boolean b) trivial
  case datetime.datetime t => exact hpg.datetime t
  case datetime.naive t => exact hpg.naive t

theorem PersistedModel.optional_iff (model : PersistedModel) :
    ∀ f ∈ model.cls.annotations, f.type = .optionalUuid → f.name = "created_by" := by
  cases model <;> decide

theorem storesItself_iff_forall (hpg : pg.Documented) {model : PersistedModel} {m : Instance model.cls}
    (htexts : pg.AcceptsTexts m) : StoresItself pg model.insert m ↔
      ∀ name v, m.attrs name = some v → v ≠ .none ∧ v.Timely := by
  rw [model.matches.storesItself_iff]
  have hkeeps : ∀ c ∈ model.insert.into.columns, ∀ v, m.attrs c.name = some v → v ≠ .none →
      (pg.Keeps c.type v ↔ v.Timely) := by
    intro c hc v hv hne
    obtain ⟨f, hf, hname, htype⟩ := model.matches.types c hc
    rw [← htype]
    exact (m.typed f hf v (hname ▸ hv)).keeps_iff hpg (fun x hx => htexts c.name x (hx ▸ hv)) hne
  constructor
  · intro h name v hv
    obtain ⟨c, hc, rfl⟩ := List.mem_map.mp
      (model.matches.covers name ((m.isSome_iff name).mp (by simp [hv])))
    obtain ⟨hne, hkept⟩ := h c hc v hv
    exact ⟨hne, (hkeeps c hc v hv hne).mp hkept⟩
  · intro h c hc v hv
    obtain ⟨hne, htimely⟩ := h c.name v hv
    exact ⟨hne, (hkeeps c hc v hv hne).mpr htimely⟩

theorem rows_round_trip_iff (pg : Codec) (hpg : pg.Documented) (model : PersistedModel)
    (m : Instance model.cls) (htexts : pg.AcceptsTexts m) :
    StoresItself pg model.insert m ↔ m.attrs "created_by" ≠ some .none ∧ m.Timely := by
  rw [storesItself_iff_forall hpg htexts]
  constructor
  · exact fun h => ⟨fun hnone => (h _ _ hnone).1 rfl, fun name v hv => (h name v hv).2⟩
  · rintro ⟨hcreator, htimely⟩ name v hv
    refine ⟨?_, htimely name v hv⟩
    rintro rfl
    obtain ⟨f, hf, rfl⟩ := List.mem_map.mp ((m.isSome_iff name).mp (by simp [hv]))
    have htype : f.type = .optionalUuid := by
      have := m.typed f hf .none hv
      revert this
      cases f.type <;> simp [FieldType.Admits]
    exact hcreator (model.optional_iff f hf htype ▸ hv)

def utcCodec : Codec where
  Stored := Value
  encode
    | .uuid, .uuid u => some (.uuid u)
    | .text, .str x => if '\x00' ∈ x.toList then none else some (.str x)
    | .boolean, .bool b => some (.bool b)
    | .timestamptz, .datetime t => if InRange t then some (.datetime t) else none
    | .timestamptz, .naive t =>
      if IsInfinite t then some (.naive t) else if InRange t then some (.datetime t) else none
    | _, _ => none
  decode _ s := s

theorem utcCodec_documented : utcCodec.Documented where
  uuid u := ⟨_, rfl, rfl⟩
  boolean b := ⟨_, rfl, rfl⟩
  text x h := by
    obtain ⟨s, hs⟩ := Option.isSome_iff_exists.mp h
    refine ⟨s, hs, ?_⟩
    unfold utcCodec at hs ⊢
    dsimp only at hs ⊢
    split at hs
    · cases hs
    · exact (Option.some.inj hs).symm
  datetime t := by simp [Codec.Keeps, utcCodec]
  naive t := by
    by_cases ht : IsInfinite t <;> simp [Codec.Keeps, utcCodec, ht]

def groupOf (createdBy : Value) (h : FieldType.optionalUuid.Admits createdBy) :
    Instance PersistedModel.group.cls :=
  .ofValues [.uuid ⟨1⟩, .str "x", createdBy, .datetime 0] (PersistedModel.matches .group).nodup
    (.cons trivial (.cons trivial (.cons h (.cons trivial .nil))))

theorem rows_round_trip_owned :
    StoresItself utcCodec Write.createGroup (groupOf (.uuid ⟨2⟩) trivial) := by
  refine (rows_round_trip_iff utcCodec utcCodec_documented .group _ fun name x h => ?_).mpr
    ⟨by decide, fun name v h => ?_⟩
  · have := Instance.mem_of_ofValues h
    simp at this
    subst this
    decide
  · have := Instance.mem_of_ofValues h
    simp at this
    rcases this with rfl | rfl | rfl | rfl <;> decide

/-- The model leaves it open who created a group, and the table does not. -/
theorem not_rows_round_trip_ownerless :
    ¬ ∀ pg : Codec, pg.Documented → ∀ (model : PersistedModel) (m : Instance model.cls),
      pg.AcceptsTexts m → StoresItself pg model.insert m := by
  intro h
  have htexts : utcCodec.AcceptsTexts (groupOf .none trivial) := fun name x hx => by
    have := Instance.mem_of_ofValues hx
    simp at this
    subst this
    decide
  obtain ⟨row, -, hexecute, -⟩ := h utcCodec utcCodec_documented .group (groupOf .none trivial) htexts
  have hrefused : utcCodec.execute 0 (fun _ => none) [] Write.createGroup
      (PersistedModel.group.cls.toArgs (groupOf .none trivial).attrs) =
        .error (.notNullViolation "groups" "created_by") := rfl
  cases hrefused.symm.trans (hexecute 0 (fun _ => none) [])

end

/-! ### The rows of the services -/

/-- A row of one of the tables, with the fields that the services know. -/
inductive StoredRow where
  | user (u : User)
  | accessToken (t : AccessToken)
  | refreshToken (t : RefreshToken)
  | group (g : Group)
  | membership (m : Membership)
  | directMessage (d : DirectMessage)
  | groupMessage (g : GroupMessage)

namespace StoredRow

def model : StoredRow → PersistedModel
  | .user _ => .user
  | .accessToken _ => .accessToken
  | .refreshToken _ => .refreshToken
  | .group _ => .group
  | .membership _ => .membership
  | .directMessage _ => .directMessage
  | .groupMessage _ => .groupMessage

def values : StoredRow → List Value
  | .user u => [.uuid u.userId, .str u.username, .str u.passwordHash, .bool u.deactivated,
      .datetime u.createdAt]
  | .accessToken t | .refreshToken t =>
    [.str t.tokenHash.str, .uuid t.userId, .bool t.isRevoked, .datetime t.expiresAt]
  | .group g => [.uuid g.groupId, .str g.name, .uuid g.createdBy, .datetime g.createdAt]
  | .membership m => [.uuid m.groupId, .uuid m.userId, .datetime m.joinedAt]
  | .directMessage d => [.uuid d.messageId, .uuid d.senderId, .uuid d.recipientId, .str d.content,
      .datetime d.createdAt]
  | .groupMessage g => [.uuid g.messageId, .uuid g.groupId, .uuid g.senderId, .str g.content,
      .datetime g.createdAt]

variable (r : StoredRow)

theorem typed : List.Forall₂ (fun f v => f.type.Admits v) r.model.cls.annotations r.values := by
  cases r <;> simp [model, values, PersistedModel.cls, FieldType.Admits]

def object : Instance r.model.cls := .ofValues r.values r.model.matches.nodup r.typed

theorem exists_text_or_time {v : Value} (hv : v ∈ r.values) : v ≠ .none ∧ ∀ t, v ≠ .naive t := by
  revert v
  cases r <;> simp [values]

/-- What the services insert is stored, and read back, as it is. -/
theorem storesItself {pg : Codec} (hpg : pg.Documented)
    (htexts : ∀ x, .str x ∈ r.values → (pg.encode .text (.str x)).isSome)
    (htimes : ∀ t, .datetime t ∈ r.values → InRange t) : StoresItself pg r.model.insert r.object := by
  refine (storesItself_iff_forall hpg fun name x hx => htexts x (Instance.mem_of_ofValues hx)).mpr ?_
  intro name v hv
  have hmem : v ∈ r.values := Instance.mem_of_ofValues hv
  obtain ⟨hne, hzoned⟩ := r.exists_text_or_time hmem
  refine ⟨hne, ?_⟩
  cases v with
  | datetime t => exact htimes t hmem
  | naive t => exact absurd rfl (hzoned t)
  | none | uuid | str | bool => trivial

end StoredRow

end Messenger.Records
