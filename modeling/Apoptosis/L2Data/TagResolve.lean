import Apoptosis.Core.OrdMap
import Apoptosis.L2Storage.Keys
/-!
# Tag resolution (`data/src/{tag,tag_resolve}.rs`)

Tag files merged per tag, and each tag resolved to its ids: depth-first,
with finished tags kept, tags on the path refused and the depth limited.
-/
namespace Apoptosis.L2.Data

open Apoptosis.Core
open Apoptosis.L2.Storage (ResourceId)

/-- mirrors crates/data/src/tag.rs:37-42 (`TagKey`) -/
@[ext] structure TagKey where
  registry : String
  name : ResourceId
  deriving DecidableEq, Repr

namespace TagKey

def rank (key : TagKey) : String ×ₗ String ×ₗ String :=
  toLex (key.registry, toLex (key.name.ns, key.name.value))

theorem rank_injective : Function.Injective rank := by
  intro k k' h
  simp [rank] at h
  exact TagKey.ext h.1 (ResourceId.ext h.2.1 h.2.2)

instance : LinearOrder TagKey := LinearOrder.lift' rank rank_injective

end TagKey

/-- mirrors crates/data/src/tag.rs:95-104 (`TagEntry`) -/
inductive TagEntry
  | id (id : ResourceId)
  | tag (key : TagKey)
  | optionalId (id : ResourceId)
  | optionalTag (key : TagKey)
  deriving DecidableEq, Repr

namespace TagEntry

/-- mirrors crates/data/src/tag.rs:109-111 (`TagEntry::is_optional`) -/
def isOptional : TagEntry → Bool
  | .optionalId _ | .optionalTag _ => true
  | _ => false

/-- mirrors crates/data/src/tag.rs:115-120 (`TagEntry::as_tag`) -/
def asTag : TagEntry → Option TagKey
  | .tag key | .optionalTag key => some key
  | .id _ | .optionalId _ => none

/-- mirrors crates/data/src/tag.rs:124-129 (`TagEntry::as_id`) -/
def asId : TagEntry → Option ResourceId
  | .id name | .optionalId name => some name
  | .tag _ | .optionalTag _ => none

end TagEntry

/-- mirrors crates/data/src/tag.rs:134-139 (`TagValue`) -/
structure TagValue where
  replace : Bool := false
  entries : List TagEntry := []
  deriving DecidableEq, Repr

/-- mirrors crates/data/src/tag.rs:154-199 (`TagProblem`) -/
inductive TagProblem
  | missingTag («from» missing : TagKey)
  | optionalMissingTag («from» missing : TagKey)
  | missingId («from» : TagKey) (missing : ResourceId) (registry : String)
  | optionalMissingId («from» : TagKey) (missing : ResourceId) (registry : String)
  | cycle (path : List TagKey)
  | tooDeep («at» : TagKey) (limit : Nat)
  deriving DecidableEq, Repr

/-- mirrors crates/data/src/tag.rs:239-251 (`TagLoadReport`) -/
structure TagLoadReport where
  files : Nat := 0
  skipped : List String := []
  problems : List TagProblem := []
  unknownRegistries : List String := []

/-- mirrors crates/data/src/tag.rs:382-384 (`RegistryContents`) -/
structure RegistryContents where
  byRegistry : OrdMap String (Finset ResourceId)

/-- mirrors crates/data/src/tag.rs:411-413 (`RegistryContents::contains`) -/
def RegistryContents.contains (contents : RegistryContents) (registry : String) (id : ResourceId) :
    Option Bool :=
  (contents.byRegistry.get? registry).map fun ids => decide (id ∈ ids)

/-- mirrors crates/data/src/tag_resolve.rs:28 (`MAX_TAG_DEPTH`) -/
def MAX_TAG_DEPTH : Nat := 64

abbrev Merged := OrdMap TagKey TagValue

/-- mirrors crates/data/src/tag_resolve.rs:67-74 (`merge`, one file) -/
def mergeFile (acc : Merged × TagLoadReport) (file : TagKey × TagValue) : Merged × TagLoadReport :=
  let slot := (acc.1.get? file.1).getD {}
  let slot :=
    if file.2.replace then file.2 else { slot with entries := slot.entries ++ file.2.entries }
  (acc.1.insert file.1 slot, { acc.2 with files := acc.2.files + 1 })

/-- mirrors crates/data/src/tag_resolve.rs:63-75 (`merge`) -/
def merge (ordered : List (TagKey × TagValue)) (report : TagLoadReport) : Merged × TagLoadReport :=
  ordered.foldl mergeFile (.empty, report)

/-! ## The walk -/

/-- What the walk shares between its frames. -/
structure Resolution where
  report : TagLoadReport
  memo : OrdMap TagKey (Finset ResourceId)
  resolving : List TagKey

def Resolution.problem (s : Resolution) (problem : TagProblem) : Resolution :=
  { s with report := { s.report with problems := s.report.problems ++ [problem] } }

section
variable (merged : Merged) (contents : RegistryContents)

/-- mirrors crates/data/src/tag_resolve.rs:115-164 (`resolve_into`, one entry) -/
def resolveEntry (descend : TagKey → Resolution × Finset ResourceId → Resolution × Finset ResourceId)
    (key : TagKey) (acc : Resolution × Finset ResourceId) (entry : TagEntry) :
    Resolution × Finset ResourceId :=
  match entry with
  | .id id | .optionalId id =>
    match contents.contains key.registry id with
    | some true | none => (acc.1, insert id acc.2)
    | some false =>
      if entry.isOptional then (acc.1.problem (.optionalMissingId key id key.registry), acc.2)
      else (acc.1.problem (.missingId key id key.registry), acc.2)
  | .tag target | .optionalTag target =>
    if (merged.get? target).isSome then descend target acc
    else if entry.isOptional then (acc.1.problem (.optionalMissingTag key target), acc.2)
    else (acc.1.problem (.missingTag key target), acc.2)

def entriesOf (key : TagKey) : List TagEntry := ((merged.get? key).map (·.entries)).getD []

/-- mirrors crates/data/src/tag_resolve.rs:80-172 (`resolve_into`). The depth counts down: `room`
is `MAX_TAG_DEPTH + 1 - depth`. -/
def resolveInto : Nat → TagKey → Resolution × Finset ResourceId → Resolution × Finset ResourceId
  | room, key, (s, out) =>
    match s.memo.get? key with
    | some done => (s, out ∪ done)
    | none =>
      match room with
      | 0 => (s.problem (.tooDeep key MAX_TAG_DEPTH), out)
      | room + 1 =>
        if key ∈ s.resolving then (s.problem (.cycle (s.resolving ++ [key])), out)
        else
          let (s, own) := (entriesOf merged key).foldl
            (resolveEntry merged contents (resolveInto room) key)
            ({ s with resolving := s.resolving ++ [key] }, ∅)
          ({ s with resolving := s.resolving.dropLast, memo := s.memo.insert key own }, out ∪ own)

/-- mirrors crates/data/src/tag_resolve.rs:44-61 (`resolve_all`, one key) -/
def resolveKey (s : Resolution) (key : TagKey) : Resolution :=
  if (s.memo.get? key).isSome then s
  else (resolveInto merged contents (MAX_TAG_DEPTH + 1) key (s, ∅)).1

end

/-- mirrors crates/data/src/tag_resolve.rs:35-62 (`resolve_all`) -/
def resolveAll (ordered : List (TagKey × TagValue)) (contents : RegistryContents)
    (report : TagLoadReport) : OrdMap TagKey (Finset ResourceId) × TagLoadReport :=
  let (merged, report) := merge ordered report
  let s := (merged.entries.map Prod.fst).foldl (resolveKey merged contents) ⟨report, .empty, []⟩
  (s.memo, s.report)

end Apoptosis.L2.Data
