import Messenger.Database.Models
import Messenger.Lib.NamedValues

/-! How `DBModel` turns an instance into the arguments of an `INSERT` statement and a record into an
instance, and what a row that is stored so gives back. -/

namespace Messenger.Records
open NamedValues

/-! ### The models -/

/-- What a field or a record holds. A `datetime` with an offset is the instant it denotes, as it compares;
an ambiguous local time, which compares as unequal, is left out: the code makes times in UTC only. -/
inductive Value where
  | none
  | uuid (u : UUID)
  | str (x : String)
  | bool (b : Bool)
  | datetime (t : Timestamp)
  /-- A `datetime` without an offset, read as if it were in UTC. -/
  | naive (t : Timestamp)
  deriving DecidableEq

inductive FieldType where
  | uuid
  | optionalUuid
  | str
  | bool
  | datetime
  deriving DecidableEq

def FieldType.Admits : FieldType → Value → Prop
  | .uuid, .uuid _ | .optionalUuid, .uuid _ | .optionalUuid, .none => True
  | .str, .str _ | .bool, .bool _ => True
  | .datetime, .datetime _ | .datetime, .naive _ => True
  | _, _ => False

inductive Default where
  | required
  | value (v : Value)
  | uuidV4
  | currentTs
  deriving DecidableEq

structure Field where
  name : String
  type : FieldType
  default : Default := .required
  deriving DecidableEq

structure ModelClass where
  annotations : List Field

def dbModel : ModelClass := ⟨[]⟩

abbrev Attrs := String → Option Value

/-- `dict(record).items()`. -/
abbrev Record := List (String × Value)

/-- What the default factories return. -/
structure Env where
  uuid : UUID
  now : Timestamp

def Default.get (env : Env) : Default → Option Value
  | .required => none
  | .value v => some v
  | .uuidV4 => some (.uuid env.uuid)
  | .currentTs => some (.datetime env.now)

/-- The `TypeError` of a constructor. -/
inductive InitError where
  | unexpected (keyword : String)
  | missing (field : String)
  deriving DecidableEq

namespace ModelClass

variable (cls : ModelClass)

def fieldNames : List String := cls.annotations.map Field.name

/-- `__mro__`, without `object`. -/
def mro : List ModelClass := [cls, dbModel]

def orderedFields (self : Attrs) : List String :=
  cls.mro.foldl
    (fun names c => c.fieldNames.foldl
      (fun names name => if name ∉ names ∧ (self name).isSome then names ++ [name] else names) names)
    []

def toArgs (self : Attrs) : List Value := (cls.orderedFields self).filterMap self

/-- The parameters of `cls.__init__`. Those of the bound `self.__init__` are the fields alone. -/
def validKeys : List String := "self" :: cls.fieldNames

/-- `cls(**kwargs)`. -/
def init (env : Env) (kwargs : Record) : Except InitError Attrs :=
  match kwargs.find? fun kv => kv.1 ∉ cls.fieldNames with
  | some kv => .error (.unexpected kv.1)
  | none =>
    match cls.annotations.find? fun f => (kwargs.lookup f.name <|> f.default.get env).isNone with
    | some f => .error (.missing f.name)
    | none => .ok fun name =>
      (cls.annotations.find? (·.name = name)).bind fun f => kwargs.lookup name <|> f.default.get env

def fromRecord (env : Env) (record : Record) : Except InitError Attrs :=
  cls.init env (record.filter fun kv => kv.1 ∈ cls.validKeys)

def updateFromRecord (self : Attrs) (record : Record) : Attrs :=
  record.foldl
    (fun self kv => if kv.1 ∈ cls.fieldNames then Function.update self kv.1 (some kv.2) else self) self

end ModelClass

structure Instance (cls : ModelClass) where
  attrs : Attrs
  isSome_iff : ∀ name, (attrs name).isSome ↔ name ∈ cls.fieldNames
  typed : ∀ f ∈ cls.annotations, ∀ v, attrs f.name = some v → f.type.Admits v

namespace Instance

variable {cls : ModelClass}

def ofValues (values : List Value) (hnodup : cls.fieldNames.Nodup)
    (htyped : List.Forall₂ (fun f v => f.type.Admits v) cls.annotations values) : Instance cls where
  attrs name := ((cls.annotations.zip values).find? (·.1.name = name)).map Prod.snd
  isSome_iff name := by
    have hfst : (cls.annotations.zip values).map Prod.fst = cls.annotations :=
      List.map_fst_zip (Nat.le_of_eq htyped.length_eq)
    rw [Option.isSome_map, List.find?_isSome, ModelClass.fieldNames]
    nth_rewrite 2 [← hfst]
    simp
  typed f hf v hv := by
    obtain ⟨⟨f', v'⟩, hfind, rfl⟩ := Option.map_eq_some_iff.mp hv
    have hmem := List.mem_of_find?_eq_some hfind
    have hname : f'.name = f.name := by simpa using List.find?_some hfind
    have hsame := List.inj_on_of_nodup_map hnodup (List.of_mem_zip hmem).1 hf hname
    exact hsame ▸ List.forall₂_zip htyped hmem

theorem mem_of_ofValues {values : List Value} {hnodup : cls.fieldNames.Nodup}
    {htyped : List.Forall₂ (fun f v => f.type.Admits v) cls.annotations values} {name : String} {v : Value}
    (h : (ofValues values hnodup htyped).attrs name = some v) : v ∈ values := by
  obtain ⟨fv, hfind, rfl⟩ := Option.map_eq_some_iff.mp h
  exact (List.of_mem_zip (List.mem_of_find?_eq_some hfind)).2

end Instance

/-! ### The tables and statements -/

inductive ColumnType where
  | uuid
  | text
  | boolean
  | timestamptz
  deriving DecidableEq

inductive ColumnDefault where
  | false
  | now
  deriving DecidableEq

structure Column where
  name : String
  type : ColumnType
  notNull : Bool
  default : Option ColumnDefault := none
  deriving DecidableEq

structure TableSchema where
  name : String
  columns : List Column

structure Insert where
  into : TableSchema
  columns : List String
  values : List ℕ
  returning : Bool

def Insert.parameters (i : Insert) : ℕ := i.values.foldr max 0

/-- How asyncpg and the server turn a value into what a cell of a column's type holds, where they accept
it, and a cell into a value. -/
structure Codec where
  Stored : Type
  encode : ColumnType → Value → Option Stored
  decode : ColumnType → Stored → Value

inductive PgError where
  /-- The number of arguments is not that of the parameters. -/
  | interface
  /-- A value is not accepted for its parameter. -/
  | data
  | notNullViolation (table column : String)
  | violation (c : Constraint)
  /-- A limit of the server, such as the size of an entry of an index. -/
  | limit
  deriving DecidableEq

namespace Codec

variable (pg : Codec)

abbrev Row := List (Column × Option pg.Stored)

def bindArg (c : Column) : Value → Except PgError (Option pg.Stored)
  | .none => .ok none
  | v =>
    match pg.encode c.type v with
    | some s => .ok (some s)
    | none => .error .data

def cell (now : Timestamp) (i : Insert) (args : List Value) (c : Column) :
    Except PgError (Option pg.Stored) :=
  match (i.columns.zip i.values).lookup c.name with
  | some n =>
    match args[n - 1]? with
    | some v => pg.bindArg c v
    | none => .error .interface
  | none =>
    match c.default with
    | none => .ok none
    | some .false => pg.bindArg c (.bool false)
    | some .now => pg.bindArg c (.datetime now)

def newRow (now : Timestamp) (i : Insert) (args : List Value) : Except PgError pg.Row :=
  i.into.columns.mapM fun c => do return (c, ← pg.cell now i args c)

def record (row : pg.Row) : Record :=
  row.map fun (c, x) => (c.name, x.elim .none (pg.decode c.type))

/-- The statement on a table with the rows `rows`, where `refused` says why keys, foreign keys or limits
do not admit a row: the rows afterwards and the record that is returned. -/
def execute (now : Timestamp) (refused : pg.Row → Option PgError) (rows : List pg.Row) (i : Insert)
    (args : List Value) : Except PgError (List pg.Row × Option Record) := do
  if args.length ≠ i.parameters then throw .interface
  let row ← pg.newRow now i args
  match row.find? fun (c, x) => c.notNull && x.isNone with
  | some (c, _) => throw (.notNullViolation i.into.name c.name)
  | none =>
    match refused row with
    | some e => throw e
    | none => return (rows ++ [row], if i.returning then some (pg.record row) else none)

end Codec

/-! ### Each model -/

inductive PersistedModel where
  | user
  | accessToken
  | refreshToken
  | group
  | membership
  | directMessage
  | groupMessage
  deriving DecidableEq

def PersistedModel.cls : PersistedModel → ModelClass
  | .user => ⟨[⟨"user_id", .uuid, .uuidV4⟩, ⟨"username", .str, .required⟩,
      ⟨"password_hash", .str, .required⟩, ⟨"deactivated", .bool, .value (.bool false)⟩,
      ⟨"created_at", .datetime, .currentTs⟩]⟩
  | .accessToken => ⟨[⟨"token_hash", .str, .required⟩, ⟨"user_id", .uuid, .required⟩,
      ⟨"is_revoked", .bool, .value (.bool false)⟩, ⟨"expires_at", .datetime, .required⟩]⟩
  | .refreshToken => ⟨[⟨"token_hash", .str, .required⟩, ⟨"user_id", .uuid, .required⟩,
      ⟨"is_revoked", .bool, .value (.bool false)⟩, ⟨"expires_at", .datetime, .required⟩]⟩
  | .group => ⟨[⟨"group_id", .uuid, .uuidV4⟩, ⟨"name", .str, .required⟩,
      ⟨"created_by", .optionalUuid, .value .none⟩, ⟨"created_at", .datetime, .currentTs⟩]⟩
  | .membership => ⟨[⟨"group_id", .uuid, .required⟩, ⟨"user_id", .uuid, .required⟩,
      ⟨"joined_at", .datetime, .currentTs⟩]⟩
  | .directMessage => ⟨[⟨"message_id", .uuid, .uuidV4⟩, ⟨"sender_id", .uuid, .required⟩,
      ⟨"recipient_id", .uuid, .required⟩, ⟨"content", .str, .required⟩,
      ⟨"created_at", .datetime, .currentTs⟩]⟩
  | .groupMessage => ⟨[⟨"message_id", .uuid, .uuidV4⟩, ⟨"group_id", .uuid, .required⟩,
      ⟨"sender_id", .uuid, .required⟩, ⟨"content", .str, .required⟩,
      ⟨"created_at", .datetime, .currentTs⟩]⟩

namespace EnsureTableExists

def user : TableSchema := ⟨"users",
  [⟨"user_id", .uuid, true, none⟩, ⟨"username", .text, true, none⟩, ⟨"password_hash", .text, true, none⟩,
    ⟨"deactivated", .boolean, true, some .false⟩, ⟨"created_at", .timestamptz, true, some .now⟩]⟩

def accessTokens : TableSchema := ⟨"access_tokens",
  [⟨"token_hash", .text, true, none⟩, ⟨"user_id", .uuid, true, none⟩,
    ⟨"expires_at", .timestamptz, true, none⟩, ⟨"is_revoked", .boolean, true, some .false⟩]⟩

def refreshTokens : TableSchema := ⟨"refresh_tokens",
  [⟨"token_hash", .text, true, none⟩, ⟨"user_id", .uuid, true, none⟩,
    ⟨"is_revoked", .boolean, true, some .false⟩, ⟨"expires_at", .timestamptz, true, none⟩]⟩

def groups : TableSchema := ⟨"groups",
  [⟨"group_id", .uuid, true, none⟩, ⟨"name", .text, true, none⟩, ⟨"created_by", .uuid, true, none⟩,
    ⟨"created_at", .timestamptz, true, some .now⟩]⟩

def memberships : TableSchema := ⟨"memberships",
  [⟨"group_id", .uuid, true, none⟩, ⟨"user_id", .uuid, true, none⟩,
    ⟨"joined_at", .timestamptz, true, some .now⟩]⟩

def directMessages : TableSchema := ⟨"direct_messages",
  [⟨"message_id", .uuid, true, none⟩, ⟨"sender_id", .uuid, true, none⟩,
    ⟨"recipient_id", .uuid, true, none⟩, ⟨"content", .text, true, none⟩,
    ⟨"created_at", .timestamptz, true, some .now⟩]⟩

def groupMessages : TableSchema := ⟨"group_messages",
  [⟨"message_id", .uuid, true, none⟩, ⟨"group_id", .uuid, true, none⟩, ⟨"sender_id", .uuid, true, none⟩,
    ⟨"content", .text, true, none⟩, ⟨"created_at", .timestamptz, true, some .now⟩]⟩

end EnsureTableExists

namespace Write

def insertUser : Insert := ⟨EnsureTableExists.user,
  ["user_id", "username", "password_hash", "deactivated", "created_at"], [1, 2, 3, 4, 5], true⟩

def insertAccessToken : Insert := ⟨EnsureTableExists.accessTokens,
  ["token_hash", "user_id", "is_revoked", "expires_at"], [1, 2, 3, 4], false⟩

def insertRefreshToken : Insert := ⟨EnsureTableExists.refreshTokens,
  ["token_hash", "user_id", "is_revoked", "expires_at"], [1, 2, 3, 4], false⟩

def createGroup : Insert := ⟨EnsureTableExists.groups,
  ["group_id", "name", "created_by", "created_at"], [1, 2, 3, 4], true⟩

def addGroupMember : Insert := ⟨EnsureTableExists.memberships,
  ["group_id", "user_id", "joined_at"], [1, 2, 3], true⟩

def sendDm : Insert := ⟨EnsureTableExists.directMessages,
  ["message_id", "sender_id", "recipient_id", "content", "created_at"], [1, 2, 3, 4, 5], true⟩

def sendGroupMessage : Insert := ⟨EnsureTableExists.groupMessages,
  ["message_id", "group_id", "sender_id", "content", "created_at"], [1, 2, 3, 4, 5], true⟩

end Write

def PersistedModel.insert : PersistedModel → Insert
  | .user => Write.insertUser
  | .accessToken => Write.insertAccessToken
  | .refreshToken => Write.insertRefreshToken
  | .group => Write.createGroup
  | .membership => Write.addGroupMember
  | .directMessage => Write.sendDm
  | .groupMessage => Write.sendGroupMessage

/-! ### What `DBModel` does with an instance -/

namespace Instance

variable {cls : ModelClass} (m : Instance cls)

theorem orderedFields_eq (hnodup : cls.fieldNames.Nodup) :
    cls.orderedFields m.attrs = cls.fieldNames := by
  have hp : ∀ name ∈ cls.fieldNames, (m.attrs name).isSome := fun _ => (m.isSome_iff _).mpr
  have h := foldl_collect (fun name => (m.attrs name).isSome) _ [] (by simpa using hnodup) hp
  simpa [ModelClass.orderedFields, ModelClass.mro, dbModel, ModelClass.fieldNames] using h

theorem getElem?_toArgs (hnodup : cls.fieldNames.Nodup) {n : ℕ} {name : String}
    (h : cls.fieldNames[n]? = some name) : (cls.toArgs m.attrs)[n]? = m.attrs name := by
  rw [ModelClass.toArgs, m.orderedFields_eq hnodup,
    getElem?_filterMap _ _ fun _ => (m.isSome_iff _).mpr, h, Option.bind_some]

theorem length_toArgs (hnodup : cls.fieldNames.Nodup) :
    (cls.toArgs m.attrs).length = cls.fieldNames.length := by
  rw [ModelClass.toArgs, m.orderedFields_eq hnodup]
  exact List.filterMap_length_eq_length.mpr fun _ => (m.isSome_iff _).mpr

variable {m} {record : Record} (h : Mirrors record m.attrs)
include h

theorem mem_fieldNames {kv : String × Value} (hkv : kv ∈ record) : kv.1 ∈ cls.fieldNames :=
  (m.isSome_iff _).mp (by simp [h.agrees kv hkv])

theorem fromRecord_eq (env : Env) : cls.fromRecord env record = .ok m.attrs := by
  have hfilter : (record.filter fun kv => kv.1 ∈ cls.validKeys) = record :=
    List.filter_eq_self.mpr fun kv hkv => by
      simp [ModelClass.validKeys, mem_fieldNames h hkv]
  have hexpected : (record.find? fun kv => kv.1 ∉ cls.fieldNames) = none :=
    List.find?_eq_none.mpr fun kv hkv => by simp [mem_fieldNames h hkv]
  have hgiven : ∀ f ∈ cls.annotations, (m.attrs f.name).isSome := fun f hf =>
    (m.isSome_iff _).mpr (List.mem_map_of_mem hf)
  have hpresent : (cls.annotations.find? fun f =>
      (record.lookup f.name <|> f.default.get env).isNone) = none :=
    List.find?_eq_none.mpr fun f hf => by
      obtain ⟨v, hv⟩ := Option.isSome_iff_exists.mp (hgiven f hf)
      simp [h.lookup, hv]
  rw [ModelClass.fromRecord, hfilter, ModelClass.init, hexpected]
  simp only [hpresent]
  congr 1
  funext name
  cases hf : cls.annotations.find? (·.name = name) with
  | none =>
    have hname : ¬ (m.attrs name).isSome := by
      rw [m.isSome_iff, ModelClass.fieldNames, List.mem_map]
      rintro ⟨f, hmem, rfl⟩
      simpa using List.find?_eq_none.mp hf f hmem
    simpa using (Option.not_isSome_iff_eq_none.mp hname).symm
  | some f =>
    obtain rfl : f.name = name := by simpa using List.find?_some hf
    obtain ⟨v, hv⟩ := Option.isSome_iff_exists.mp (hgiven f (List.mem_of_find?_eq_some hf))
    simp [h.lookup, hv]

theorem updateFromRecord_eq : cls.updateFromRecord m.attrs record = m.attrs :=
  h.foldl_update (· ∈ cls.fieldNames)

end Instance

/-! ### What an `INSERT` statement does -/

namespace Codec

variable {pg : Codec} {now : Timestamp} {i : Insert} {args : List Value} {refused : pg.Row → Option PgError}
variable {rows : List pg.Row} {row : pg.Row}

/-- The row that the statement makes of the arguments, and which leaves no `NOT NULL` column empty. -/
structure Makes (pg : Codec) (now : Timestamp) (i : Insert) (args : List Value) (row : pg.Row) : Prop where
  arity : args.length = i.parameters
  columns : row.map Prod.fst = i.into.columns
  cells : ∀ cx ∈ row, pg.cell now i args cx.1 = .ok cx.2
  notNull : ∀ cx ∈ row, cx.1.notNull → cx.2.isSome

theorem Makes.execute_eq (h : Makes pg now i args row) :
    pg.execute now refused rows i args =
      match refused row with
      | some e => .error e
      | none => .ok (rows ++ [row], if i.returning then some (pg.record row) else none) := by
  have hnull : (row.find? fun (c, x) => c.notNull && x.isNone) = none :=
    List.find?_eq_none.mpr fun cx hcx => by
      simpa [Option.isSome_iff_ne_none] using h.notNull cx hcx
  rw [execute, if_neg (not_not.mpr h.arity), newRow, mapM_pair_eq_ok_iff.mpr ⟨h.columns, h.cells⟩]
  simp only [bind, Except.bind, pure, Except.pure, hnull]
  rfl

theorem makes_of_execute {r : Option Record}
    (h : pg.execute now refused rows i args = .ok (rows ++ [row], r)) : Makes pg now i args row := by
  rw [execute] at h
  split at h
  · cases h
  · next harity =>
    cases hrow : pg.newRow now i args with
    | error e => simp [hrow, bind, Except.bind] at h
    | ok row' =>
      simp only [hrow, bind, Except.bind, pure, Except.pure] at h
      split at h
      · cases h
      · next hnull =>
        split at h
        · cases h
        · obtain rfl : row' = row := by simpa using (Prod.mk.inj (Except.ok.inj h)).1
          obtain ⟨hcolumns, hcells⟩ := mapM_pair_eq_ok_iff.mp hrow
          exact ⟨not_not.mp harity, hcolumns, hcells, fun cx hcx => by
            simpa [Option.isSome_iff_ne_none] using List.find?_eq_none.mp hnull cx hcx⟩

def Keeps (pg : Codec) (type : ColumnType) (v : Value) : Prop :=
  ∃ s, pg.encode type v = some s ∧ pg.decode type s = v

theorem bindArg_of_ne_none {c : Column} {v : Value} (hv : v ≠ .none) :
    pg.bindArg c v = match pg.encode c.type v with
      | some s => .ok (some s)
      | none => .error .data := by
  cases v with
  | none => exact absurd rfl hv
  | _ => rfl

end Codec

end Messenger.Records
