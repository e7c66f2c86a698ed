import Apoptosis.Core.OrdMap
import Apoptosis.Core.Text
import Mathlib.Data.String.Basic
/-!
# Access files (`server/src/ops.rs`, `whitelist.rs`, `bans.rs`, `access_uuid.rs`)

The four access files have one shape: a JSON array of rows, each keyed by one
of its fields. A damaged row is skipped, a repeated key or a file with no row
that can be read is an error. `RowFormat` is what tells them apart. The error
texts are kept as their parts, without the path they all start with.

The JSON text, the `uuid` crate and the addresses of the standard library are
not in the repository: `External` holds them, with what the files rely on.

* `load_save`: a table of rows that read back reads back as a whole.
* `loaded_of_load`: every row of a loaded table was read from an entry, and stands under its key.
-/
namespace Apoptosis.L2.Access
open Apoptosis.Core

abbrev Text := List Char

/-- `serde_json::Value`, a number as `as_i64` sees it. -/
inductive Json
  | null
  | bool (b : Bool)
  | number (n : Option Int)
  | str (s : Text)
  | arr (l : List Json)
  | obj (fields : List (Text × Json))

namespace Json

/-- mirrors crates/data/src/json.rs:186-195 (`type_name`) -/
def typeName : Json → String
  | .null => "null"
  | .bool _ => "a boolean"
  | .number _ => "a number"
  | .str _ => "a string"
  | .arr _ => "an array"
  | .obj _ => "an object"

def asStr : Json → Option Text
  | .str s => some s
  | _ => none

def asI64 : Json → Option Int
  | .number n => n
  | _ => none

def asBool : Json → Option Bool
  | .bool b => some b
  | _ => none

/-- What a row of these files holds in a field. -/
def Plain : Json → Prop
  | .bool _ => True
  | .str _ => True
  | .number (some n) => -2 ^ 63 ≤ n ∧ n < 2 ^ 63
  | _ => False

end Json

/-- The fields of a JSON object, in the order `serde_json` keeps them. -/
abbrev Fields := List (Text × Json)

/-- `Map::get` -/
def field (fields : Fields) (name : String) : Option Json := lookupEntry name.toList fields

/-- Fields that serde_json writes and reads back: each once, in order, and plain. -/
def Fields.Plain (fields : Fields) : Prop :=
  Ascending fields ∧ ∀ field ∈ fields, field.2.Plain

/-- What the access files use from outside the repository. -/
structure External where
  /-- The text of a file. -/
  Contents : Type
  /-- `serde_json::to_string_pretty` -/
  toStringPretty : Json → Contents
  /-- `serde_json::from_str` -/
  fromStr : Contents → Option Json
  /-- The length of the file, as its metadata gives it. -/
  len : Contents → Nat
  /-- Rows that were written are read as they were. -/
  fromStr_toStringPretty : ∀ rows : List Fields, (∀ row ∈ rows, row.Plain) →
    fromStr (toStringPretty (.arr (rows.map .obj))) = some (.arr (rows.map .obj))
  /-- `Uuid::parse_str(text).is_ok()` -/
  uuidParses : Text → Bool
  /-- `std::net::IpAddr` -/
  Ip : Type
  ipOrder : LinearOrder Ip
  /-- `IpAddr::to_string` -/
  ipText : Ip → Text
  /-- `str::parse::<IpAddr>` -/
  ipParse : Text → Option Ip
  /-- An address is read as it was written, with no white space around it. -/
  ipParse_ipText : ∀ ip, ipParse (trim (ipText ip)) = some ip

attribute [instance] External.ipOrder

/-! ## The `uuid` field -/

/-- mirrors crates/server/src/access_uuid.rs:81-83 (`normalise`) -/
def normalise (uuid : Text) : Text := (trim uuid).map Char.toLower

def isAsciiHexdigit (c : Char) : Bool :=
  c.isDigit || ('a' ≤ c && c ≤ 'f') || ('A' ≤ c && c ≤ 'F')

/-- The shape gate of `parse`, mirrors crates/server/src/access_uuid.rs:93-107 -/
def uuidShaped (trimmed : Text) : Bool :=
  let dashes := trimmed.countP (· = '-')
  let hexdigits := trimmed.countP isAsciiHexdigit
  hexdigits = 32 && dashes ≤ 4 && trimmed.length = hexdigits + dashes &&
    trimmed.all fun c => c = '-' || isAsciiHexdigit c

/-- mirrors crates/server/src/access_uuid.rs:92-117 (`parse`, `is_valid`) -/
def isValidUuid (ext : External) (text : Text) : Bool :=
  uuidShaped (trim text) && ext.uuidParses (trim text)

theorem normalise_normalise (uuid : Text) : normalise (normalise uuid) = normalise uuid :=
  trim_normal uuid

theorem isValidUuid_ne_nil {ext : External} {uuid : Text} (h : isValidUuid ext uuid) : uuid ≠ [] := by
  rintro rfl
  have hshape := (Bool.and_eq_true _ _ ▸ h).1
  revert hshape
  decide

/-- A uuid as the access lists key on it: what a row of a file can match. -/
structure AccessUuid (ext : External) where
  text : Text
  normal : normalise text = text
  valid : isValidUuid ext text = true

/-! ## Rows and files -/

/-- What is wrong with a row. -/
inductive RowProblem
  | notObject (found : String)
  | noUuid
  | emptyUuid
  | badUuid (uuid : Text)
  | noLevel (uuid : Text)
  | levelOutside (uuid : Text) (level : Int)
  | unknownLevel (uuid : Text) (level : Int)
  | noIp
  | badIp (text : Text)
  | noDate (field : String)
  | badDate (field : String) (text : Text)

/-- What is wrong with a file. -/
inductive FileProblem
  | tooLarge
  | invalid
  | notArray (found : String)
  | row (index : Nat) (problem : RowProblem)
  | repeats (index : Nat)
  | noneRead (entries : Nat)

/-- mirrors crates/server/src/access_uuid.rs:42-74 (`from_row`) -/
def uuidFromRow (ext : External) (fields : Fields) : Except RowProblem Text :=
  match (field fields "uuid").bind Json.asStr with
  | none => .error .noUuid
  | some raw =>
    let uuid := normalise raw
    if uuid = [] then .error .emptyUuid
    else if !isValidUuid ext uuid then .error (.badUuid uuid)
    else .ok uuid

/-- `object.get(field).and_then(Value::as_str).unwrap_or("")` -/
def textOf (fields : Fields) (name : String) : Text :=
  ((field fields name).bind Json.asStr).getD []

/-- What tells the access files apart: the key of a row, its fields and how they are read. -/
structure RowFormat (κ ρ : Type) where
  key : ρ → κ
  fields : ρ → Fields
  parseEntry : Json → Except RowProblem ρ
  fields_plain : ∀ row, (fields row).Plain

/-- `LIMITS.max_bytes` of each file. -/
def MAX_BYTES : Nat := 1024 * 1024

variable {κ ρ : Type} [LinearOrder κ] (format : RowFormat κ ρ)

/-- The loop of `from_value`: the rows read so far, and the first problem met. -/
def readRows : Nat → List Json → OrdMap κ ρ → Option FileProblem →
    Except FileProblem (OrdMap κ ρ × Option FileProblem)
  | _, [], rows, first => .ok (rows, first)
  | index, entry :: entries, rows, first =>
    match format.parseEntry entry with
    | .error problem => readRows (index + 1) entries rows (first <|> some (.row index problem))
    | .ok row =>
      match rows.get? (format.key row) with
      | some _ => .error (.repeats index)
      | none => readRows (index + 1) entries (rows.insert (format.key row) row) first

/-- `from_value`, `players_from_value` and `ips_from_value`. -/
def fromValue (value : Json) : Except FileProblem (OrdMap κ ρ) :=
  match value with
  | .arr entries =>
    match readRows format 0 entries .empty none with
    | .error problem => .error problem
    | .ok (rows, first) =>
      if rows.size = 0 && !entries.isEmpty then .error (first.getD (.noneRead entries.length))
      else .ok rows
  | value => .error (.notArray value.typeName)

/-- `load`: a missing file holds no row. -/
def load (ext : External) (file : Option ext.Contents) : Except FileProblem (OrdMap κ ρ) :=
  match file with
  | none => .ok .empty
  | some text =>
    if ext.len text > MAX_BYTES then .error .tooLarge
    else
      match ext.fromStr text with
      | none => .error .invalid
      | some value => fromValue format value

/-- The text `save` writes: the rows ascending by key. -/
def save (ext : External) (rows : OrdMap κ ρ) : ext.Contents :=
  ext.toStringPretty (.arr ((rows.entries.map fun entry => format.fields entry.2).map .obj))

/-- Every row is held under its own key and reads back as itself. -/
def Readable (rows : OrdMap κ ρ) : Prop :=
  ∀ k row, rows.get? k = some row →
    format.key row = k ∧ format.parseEntry (.obj (format.fields row)) = .ok row

theorem readRows_rows {l : List (κ × ρ)} {seen : OrdMap κ ρ} (index : Nat)
    (first : Option FileProblem)
    (hread : ∀ e ∈ l, format.key e.2 = e.1 ∧ format.parseEntry (.obj (format.fields e.2)) = .ok e.2)
    (hsorted : Ascending l) (hnew : ∀ e ∈ l, seen.get? e.1 = none) :
    readRows format index (l.map fun e => .obj (format.fields e.2)) seen first =
      .ok (l.foldl (fun rows e => rows.insert e.1 e.2) seen, first) := by
  induction l generalizing seen index with
  | nil => rfl
  | cons e l ih =>
    obtain ⟨hhead, htail⟩ := List.pairwise_cons.mp hsorted
    obtain ⟨hkey, hparse⟩ := hread e (List.mem_cons_self ..)
    rw [List.map_cons, readRows, hparse]
    dsimp only
    rw [hkey, hnew e (List.mem_cons_self ..)]
    apply ih
    · exact fun e' he' => hread e' (List.mem_cons_of_mem _ he')
    · exact htail
    · intro e' he'
      rw [OrdMap.get?_insert, if_neg (hhead e' he').ne]
      exact hnew e' (List.mem_cons_of_mem _ he')

theorem foldl_insert_get? (l : List (κ × ρ)) (seen : OrdMap κ ρ) (hsorted : Ascending l) (k : κ) :
    (l.foldl (fun rows e => rows.insert e.1 e.2) seen).get? k =
      (lookupEntry k l).or (seen.get? k) := by
  induction l generalizing seen with
  | nil => rfl
  | cons e l ih =>
    obtain ⟨hhead, htail⟩ := List.pairwise_cons.mp hsorted
    rw [List.foldl_cons, ih (seen.insert e.1 e.2) htail, OrdMap.get?_insert, lookupEntry]
    by_cases h : e.1 = k
    · have hnone : lookupEntry k l = none := by
        rw [Option.eq_none_iff_forall_ne_some]
        intro row hrow
        exact absurd (hhead _ ((lookup_eq_some htail).mp hrow)) (h ▸ lt_irrefl _)
      simp [h, hnone]
    · simp [h]

/-- A table of rows that read back is what a reload of its file gives. -/
theorem load_save (ext : External) {rows : OrdMap κ ρ} (hrows : Readable format rows)
    (hlen : ext.len (save format ext rows) ≤ MAX_BYTES) :
    load format ext (some (save format ext rows)) = .ok rows := by
  have hread : ∀ e ∈ rows.entries, format.key e.2 = e.1 ∧
      format.parseEntry (.obj (format.fields e.2)) = .ok e.2 :=
    fun e he => hrows e.1 e.2 (OrdMap.mem_entries.mp he)
  have hplain : ∀ row ∈ rows.entries.map fun entry => format.fields entry.2, row.Plain := by
    intro row hrow
    obtain ⟨e, -, rfl⟩ := List.mem_map.mp hrow
    exact format.fields_plain e.2
  have hfold : rows.entries.foldl (fun rows e => rows.insert e.1 e.2) .empty = rows := by
    apply OrdMap.ext_get?
    intro k
    rw [foldl_insert_get? rows.entries .empty rows.sorted k, OrdMap.get?_empty, Option.or_none]
    rfl
  rw [load, if_neg (by omega), save, ext.fromStr_toStringPretty _ hplain]
  dsimp only [fromValue]
  rw [List.map_map]
  have hloop := readRows_rows format 0 none hread rows.sorted fun e _ => OrdMap.get?_empty e.1
  rw [hfold] at hloop
  rw [show (Json.obj ∘ fun entry : κ × ρ => format.fields entry.2) =
    fun e => .obj (format.fields e.2) from rfl, hloop]
  dsimp only
  rw [if_neg]
  simp only [OrdMap.size, List.isEmpty_map, Bool.and_eq_true, decide_eq_true_eq,
    Bool.not_eq_true', List.isEmpty_eq_false_iff, List.length_eq_zero_iff, not_and, not_not]
  exact id

/-- Every row is held under its own key and was read from some entry. -/
def Loaded (rows : OrdMap κ ρ) : Prop :=
  ∀ k row, rows.get? k = some row → format.key row = k ∧ ∃ entry, format.parseEntry entry = .ok row

variable {format}

theorem loaded_of_readRows {entries : List Json} {index : Nat} {seen rows : OrdMap κ ρ}
    {first first' : Option FileProblem} (hseen : Loaded format seen)
    (h : readRows format index entries seen first = .ok (rows, first')) : Loaded format rows := by
  induction entries generalizing index seen first with
  | nil =>
    cases h
    exact hseen
  | cons entry entries ih =>
    unfold readRows at h
    split at h
    · exact ih hseen h
    · rename_i row hrow
      split at h
      · cases h
      · refine ih ?_ h
        intro k row' hget
        rw [OrdMap.get?_insert] at hget
        split at hget
        · rename_i hk
          cases hget
          exact ⟨hk, entry, hrow⟩
        · exact hseen k row' hget

theorem loaded_of_load {ext : External} {file : Option ext.Contents} {rows : OrdMap κ ρ}
    (h : load format ext file = .ok rows) : Loaded format rows := by
  have hempty : Loaded format (.empty : OrdMap κ ρ) := nofun
  unfold load at h
  split at h
  · cases h
    exact hempty
  · split at h
    · cases h
    · split at h
      · cases h
      · unfold fromValue at h
        split at h
        · split at h
          · cases h
          · rename_i hread
            split at h
            · cases h
            · cases h
              exact loaded_of_readRows hempty hread
        · cases h

end Apoptosis.L2.Access
