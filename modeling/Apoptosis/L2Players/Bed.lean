import Apoptosis.Core.Instances
import Apoptosis.L2World.World
/-!
# Bed blocks (`server/src/game/sleep.rs`)

A bed is two blocks that name each other by their facing. Their states are found
by name and properties in the block table.

* `readHalf_stateId`: a bed state that is written reads back.
* `halfOf_setBedOccupied`: what writing `occupied` does to the halves in a world.
-/
namespace Apoptosis.L2.Sleep
open Apoptosis.Core Apoptosis.L2.Registry Apoptosis.L2.Terrain

abbrev BlockPos := Int × Int × Int

def text (s : String) : List Char := s.toList

/-! ## Bed states -/

inductive Facing
  | north
  | south
  | west
  | east
  deriving DecidableEq, Repr

inductive Part
  | head
  | foot
  deriving DecidableEq, Repr

def Facing.name : Facing → List Char
  | .north => text "north"
  | .south => text "south"
  | .west => text "west"
  | .east => text "east"

def Part.name : Part → List Char
  | .head => text "head"
  | .foot => text "foot"

def Part.other : Part → Part
  | .head => .foot
  | .foot => .head

def boolName (b : Bool) : List Char := if b then text "true" else text "false"

/-- mirrors crates/server/src/game/sleep.rs:95-103 (`facing_offset`) -/
def facingOffset (facing : List Char) : BlockPos :=
  if facing = text "north" then (0, 0, -1)
  else if facing = text "south" then (0, 0, 1)
  else if facing = text "west" then (-1, 0, 0)
  else if facing = text "east" then (1, 0, 0)
  else (0, 0, 0)

structure Shape where
  facing : Facing
  occupied : Bool
  part : Part
  deriving DecidableEq, Repr

/-- The properties of a bed state, as `properties_of` lists them. -/
def Shape.properties (s : Shape) : Properties :=
  [(text "part", s.part.name), (text "occupied", boolName s.occupied), (text "facing", s.facing.name)]

def shapes : List Shape :=
  [.north, .south, .west, .east].flatMap fun facing => [true, false].flatMap fun occupied =>
    [.head, .foot].map fun part => ⟨facing, occupied, part⟩

theorem mem_shapes (s : Shape) : s ∈ shapes := by
  obtain ⟨facing, occupied, part⟩ := s
  cases facing <;> cases occupied <;> cases part <;> decide

theorem properties_injective : Function.Injective Shape.properties := by
  have hall : ∀ s ∈ shapes, ∀ s' ∈ shapes, s.properties = s'.properties → s = s' := by decide
  exact fun s s' h => hall s (mem_shapes s) s' (mem_shapes s') h

/-- The axes of the bed rows of the block table. -/
def bedAxes : List (List Char × List (List Char)) :=
  [(text "facing", [text "north", text "south", text "west", text "east"]),
    (text "occupied", [text "true", text "false"]), (text "part", [text "head", text "foot"])]

def isBed (name : List Char) : Bool := List.isSuffixOf (text "_bed") name

/-- What the block table says of beds, and of the id that stands for nothing. -/
structure BedTable (registry : BlockRegistry) : Prop where
  consistent : registry.Consistent
  axes : ∀ name entry, registry.byName name = some entry → isBed name → entry.axes = bedAxes
  nothing : ∀ name, registry.blockName 0 = some name → isBed name = false
  air : ∀ name, registry.blockName registry.airId = some name → isBed name = false

structure Half where
  name : List Char
  shape : Shape
  deriving DecidableEq, Repr

/-- The bed half that a state id is. -/
def readHalf (registry : BlockRegistry) (id : Int) : Option Half := do
  let name ← registry.blockName id
  let properties ← registry.propertiesOf id
  if isBed name then (shapes.find? (·.properties = properties)).map (⟨name, ·⟩) else none

theorem readHalf_eq_some {registry : BlockRegistry} {id : Int} {half : Half} :
    readHalf registry id = some half ↔ registry.blockName id = some half.name ∧ isBed half.name ∧
      registry.propertiesOf id = some half.shape.properties := by
  obtain ⟨name, shape⟩ := half
  unfold readHalf
  cases registry.blockName id with
  | none => simp
  | some found =>
    cases registry.propertiesOf id with
    | none => simp
    | some properties =>
      simp only [Option.bind_eq_bind, Option.bind_some, Option.some.injEq]
      by_cases hbed : isBed found
      · rw [if_pos hbed, Option.map_eq_some_iff]
        constructor
        · intro ⟨s, hs, heq⟩
          have hproperties : s.properties = properties := by simpa using List.find?_some hs
          cases heq
          exact ⟨rfl, hbed, hproperties.symm⟩
        · intro ⟨hname, _, hproperties⟩
          subst hname hproperties
          refine ⟨shape, ?_, rfl⟩
          have hsome : (shapes.find? (fun (s : Shape) => s.properties = shape.properties)).isSome := by
            rw [List.find?_isSome]
            exact ⟨shape, mem_shapes shape, by simp⟩
          obtain ⟨s, hs⟩ := Option.isSome_iff_exists.mp hsome
          rw [hs, properties_injective (by simpa using List.find?_some hs : s.properties = shape.properties)]
      · rw [if_neg hbed]
        constructor
        · exact fun h => nomatch h
        · intro ⟨hname, hbed', _⟩
          exact absurd (hname ▸ hbed') hbed

theorem decoded_bedAxes : ∀ j < 16, ∃ shape ∈ shapes,
    (BlockEntry.sortProperties (BlockEntry.decodeLoop bedAxes.reverse j)).reverse = shape.properties := by
  decide

/-- Every state of a bed is one of the sixteen. -/
theorem readHalf_isSome {registry : BlockRegistry} (ht : BedTable registry) {id : Int} {name : List Char}
    (hname : registry.blockName id = some name) (hbed : isBed name = true) :
    ∃ shape, readHalf registry id = some ⟨name, shape⟩ := by
  obtain ⟨entry, hentry, hfirst, hlast⟩ := ht.consistent.owner id name hname
  have haxes := ht.axes name entry hentry hbed
  have hcount : entry.stateCount = 16 := by
    rw [(ht.consistent.proper name entry hentry).count, haxes]
    rfl
  obtain ⟨j, hj, hid⟩ : ∃ j : Nat, j < 16 ∧ id - entry.firstStateId = j :=
    ⟨(id - entry.firstStateId).toNat, by omega, by omega⟩
  have hproperties : registry.propertiesOf id = entry.propertiesOf j := by
    simp only [BlockRegistry.propertiesOf, hname, hentry]
    rw [if_neg (by omega), hid, Int.toNat_natCast]
  obtain ⟨shape, -, hshape⟩ := decoded_bedAxes j hj
  have hdecoded : entry.propertiesOf j = some shape.properties := by
    unfold BlockEntry.propertiesOf
    rw [if_neg (by omega), haxes, hshape]
  exact ⟨shape, readHalf_eq_some.mpr ⟨hname, hbed, hproperties.trans hdecoded⟩⟩

theorem assigns_properties {entry : BlockEntry} (h : entry.axes = bedAxes) (shape : Shape) :
    entry.Assigns shape.properties := by
  have hall : ∀ s ∈ shapes, s.properties.Pairwise (fun a b => toLex b ≤ toLex a) ∧
      (∀ axis ∈ bedAxes, ∀ p ∈ s.properties, p.1 = axis.1 → p.2 ∈ axis.2) := by decide
  obtain ⟨hsorted, hvalues⟩ := hall shape (mem_shapes shape)
  refine ⟨hsorted, ?_, fun axis haxis v hv => ?_⟩
  · rw [h]
    exact (List.reverse_perm _).symm
  · exact hvalues axis (h ▸ haxis) _ hv rfl

theorem readHalf_stateId {registry : BlockRegistry} (ht : BedTable registry) {id : Int} {half : Half}
    (h : readHalf registry id = some half) (shape : Shape) :
    ∃ id', registry.stateId half.name shape.properties = some id' ∧
      readHalf registry id' = some ⟨half.name, shape⟩ := by
  obtain ⟨hname, hbed, -⟩ := readHalf_eq_some.mp h
  obtain ⟨entry, hentry, -, -⟩ := ht.consistent.owner id half.name hname
  obtain ⟨id', hid', hname', hproperties'⟩ := BlockRegistry.stateId_spec ht.consistent hentry
    (by simp [Shape.properties]) (assigns_properties (ht.axes half.name entry hentry hbed) shape)
  exact ⟨id', hid', readHalf_eq_some.mpr ⟨hname', hbed, hproperties'⟩⟩

/-! ## Beds in a world -/

def blockAt (w : World) (pos : BlockPos) : Option Int := w.getBlockLoaded pos.1 pos.2.1 pos.2.2

def valueOf (key : List Char) (properties : Properties) : Option (List Char) :=
  (properties.find? (·.1 = key)).map (·.2)

/-- mirrors crates/server/src/game/sleep.rs:109-146 (`bed_head_of`) -/
def bedHeadOf (w : World) (pos : BlockPos) : Option BlockPos := do
  let id ← blockAt w pos
  let name ← w.registry.blockName id
  if isBed name then
    let properties := (w.registry.propertiesOf id).getD []
    let part ← valueOf (text "part") properties
    let facing := (valueOf (text "facing") properties).getD (text "north")
    if part = text "head" then some pos
    else
      let head := pos + facingOffset facing
      let headId ← blockAt w head
      let headName ← w.registry.blockName headId
      if headName ≠ name then none
      else
        let headProperties := (w.registry.propertiesOf headId).getD []
        if headProperties.any (· = (text "part", text "head")) then some head else none
  else none

section
attribute [local instance] Apoptosis.Core.lawfulText

/-- mirrors crates/server/src/game/sleep.rs:246-254 (`bed_facing_of`) -/
def bedFacingOf (w : World) (head : BlockPos) : Option (List Char) := do
  let id ← blockAt w head
  let properties ← w.registry.propertiesOf id
  let facing ← valueOf (text "facing") properties
  if facing ∈ [text "north", text "south", text "west", text "east"] then some facing else none

end

def footOf (w : World) (head : BlockPos) : BlockPos :=
  let offset := facingOffset ((bedFacingOf w head).getD (text "north"))
  (head.1 - offset.1, head.2.1, head.2.2 - offset.2.2)

/-- mirrors crates/server/src/game/sleep.rs:276-297 (`bed_occupied`) -/
def bedOccupied (w : World) (head : BlockPos) : Bool :=
  [footOf w head, head].any fun pos =>
    ((blockAt w pos).bind w.registry.propertiesOf).bind (valueOf (text "occupied")) = some (text "true")

def setValue (key value : List Char) : Properties → Option Properties
  | [] => none
  | p :: rest =>
    if p.1 = key then some ((key, value) :: rest) else (setValue key value rest).map (p :: ·)

/-- The new state of a bed half, `none` where there is nothing to write. -/
def occupiedId (w : World) (occupied : Bool) (pos : BlockPos) : Option Int := do
  let id ← blockAt w pos
  let name ← w.registry.blockName id
  if isBed name then
    let properties ← setValue (text "occupied") (boolName occupied) ((w.registry.propertiesOf id).getD [])
    w.registry.stateId name properties
  else none

def setHalfOccupied (occupied : Bool) (w : World) (pos : BlockPos) : World :=
  match occupiedId w occupied pos with
  | none => w
  | some id => (w.setBlock pos.1 pos.2.1 pos.2.2 id).2

/-- mirrors crates/server/src/game/sleep.rs:300-328 (`set_bed_occupied`): the foot is written first -/
def setBedOccupied (w : World) (head : BlockPos) (occupied : Bool) : World :=
  [footOf w head, head].foldl (setHalfOccupied occupied) w

/-! ## Halves -/

def halfOf (w : World) (pos : BlockPos) : Option Half := (blockAt w pos).bind (readHalf w.registry)

namespace Half

def offset (half : Half) : BlockPos := facingOffset half.shape.facing.name

def headPos (half : Half) (pos : BlockPos) : BlockPos :=
  match half.shape.part with
  | .head => pos
  | .foot => pos + half.offset

def partnerPos (half : Half) (pos : BlockPos) : BlockPos :=
  match half.shape.part with
  | .head => pos - half.offset
  | .foot => pos + half.offset

def partner (half : Half) : Half := { half with shape.part := half.shape.part.other }

def occupy (occupied : Bool) (half : Half) : Half := { half with shape.occupied := occupied }

end Half

/-- Every half has the other half of its bed where it faces. -/
def Paired (w : World) : Prop :=
  ∀ pos half, halfOf w pos = some half → halfOf w (half.partnerPos pos) = some half.partner

variable {w : World} {pos head : BlockPos} {half : Half}

theorem halfOf_eq_some : halfOf w pos = some half ↔ ∃ id, blockAt w pos = some id ∧
    w.registry.blockName id = some half.name ∧ isBed half.name ∧
    w.registry.propertiesOf id = some half.shape.properties := by
  rw [halfOf, Option.bind_eq_some_iff]
  simp only [readHalf_eq_some]

theorem valueOf_facing (s : Shape) : valueOf (text "facing") s.properties = some s.facing.name :=
  (by decide : ∀ s ∈ shapes, valueOf (text "facing") s.properties = some s.facing.name) s (mem_shapes s)

theorem valueOf_part (s : Shape) : valueOf (text "part") s.properties = some s.part.name :=
  (by decide : ∀ s ∈ shapes, valueOf (text "part") s.properties = some s.part.name) s (mem_shapes s)

theorem valueOf_occupied (s : Shape) :
    valueOf (text "occupied") s.properties = some (boolName s.occupied) :=
  (by decide : ∀ s ∈ shapes, valueOf (text "occupied") s.properties = some (boolName s.occupied))
    s (mem_shapes s)

theorem setValue_occupied (s : Shape) (occupied : Bool) :
    setValue (text "occupied") (boolName occupied) s.properties =
      some { s with occupied := occupied }.properties :=
  (by decide : ∀ occupied, ∀ s ∈ shapes, setValue (text "occupied") (boolName occupied) s.properties =
    some { s with occupied := occupied }.properties) occupied s (mem_shapes s)

theorem bedFacingOf_half (h : halfOf w pos = some half) :
    bedFacingOf w pos = some half.shape.facing.name := by
  obtain ⟨id, hid, -, -, hproperties⟩ := halfOf_eq_some.mp h
  have hfacing : half.shape.facing.name ∈ [text "north", text "south", text "west", text "east"] := by
    cases half.shape.facing <;> decide
  simp only [bedFacingOf, hid, hproperties, valueOf_facing, Option.bind_eq_bind, Option.bind_some]
  rw [if_pos hfacing]

theorem Half.offset_level (half : Half) : half.offset.2.1 = 0 ∧ half.offset ≠ 0 := by
  unfold Half.offset
  cases half.shape.facing <;> decide

theorem footOf_half (h : halfOf w head = some half) (hpart : half.shape.part = .head) :
    footOf w head = half.partnerPos head := by
  have hlevel := half.offset_level.1
  rw [footOf, bedFacingOf_half h, Option.getD_some, Half.partnerPos, hpart]
  refine Prod.ext rfl (Prod.ext ?_ rfl)
  change head.2.1 = head.2.1 - half.offset.2.1
  omega

/-- A bed that is found is a head. -/
theorem bedHeadOf_some (ht : BedTable w.registry) (h : bedHeadOf w pos = some head) :
    ∃ half, halfOf w head = some half ∧ half.shape.part = .head := by
  have hread (pos : BlockPos) (id : Int) (name : List Char) (hid : blockAt w pos = some id)
      (hname : w.registry.blockName id = some name) (hbed : isBed name = true) :
      ∃ half, halfOf w pos = some half ∧ w.registry.propertiesOf id = some half.shape.properties := by
    obtain ⟨shape, hshape⟩ := readHalf_isSome ht hname hbed
    exact ⟨⟨name, shape⟩, by rw [halfOf, hid, Option.bind_some, hshape], (readHalf_eq_some.mp hshape).2.2⟩
  simp only [bedHeadOf, Option.bind_eq_bind, Option.bind_eq_some_iff] at h
  obtain ⟨id, hid, name, hname, h⟩ := h
  split at h
  · rename_i hbed
    obtain ⟨half, hhalf, hproperties⟩ := hread pos id name hid hname hbed
    obtain ⟨part, hpart, h⟩ := Option.bind_eq_some_iff.mp h
    rw [hproperties, Option.getD_some, valueOf_part] at hpart
    split at h
    · rename_i hpartHead
      cases h
      refine ⟨half, hhalf, ?_⟩
      rw [← Option.some.inj hpart] at hpartHead
      revert hpartHead
      cases half.shape.part <;> decide
    · obtain ⟨headId, hheadId, h⟩ := Option.bind_eq_some_iff.mp h
      obtain ⟨headName, hheadName, h⟩ := Option.bind_eq_some_iff.mp h
      split at h
      · exact nomatch h
      · rename_i hsame
        obtain ⟨half', hhalf', hproperties'⟩ := hread _ headId headName hheadId hheadName
          (by rw [not_not.mp hsame]; exact hbed)
        split at h
        · rename_i hany
          cases h
          refine ⟨half', hhalf', ?_⟩
          have hmem : (text "part", text "head") ∈ half'.shape.properties := by
            rw [hproperties', Option.getD_some] at hany
            simpa using hany
          exact (by decide : ∀ s ∈ shapes, (text "part", text "head") ∈ s.properties → s.part = .head)
            half'.shape (mem_shapes _) hmem
        · exact nomatch h
  · exact nomatch h

/-- A head that reads occupied makes its bed occupied. -/
theorem bedOccupied_head (h : halfOf w head = some half) (hfree : bedOccupied w head = false) :
    half.shape.occupied = false := by
  obtain ⟨id, hid, -, -, hproperties⟩ := halfOf_eq_some.mp h
  rw [bedOccupied, List.any_eq_false] at hfree
  have hhead := hfree head (by simp)
  rw [hid, Option.bind_some, hproperties, Option.bind_some, valueOf_occupied] at hhead
  revert hhead
  cases half.shape.occupied <;> decide

/-! ## Writing `occupied` -/

theorem setHalfOccupied_spec (ht : BedTable w.registry) (occupied : Bool) (pos : BlockPos) :
    (setHalfOccupied occupied w pos).registry = w.registry ∧ ∀ pos', halfOf (setHalfOccupied occupied w pos) pos' =
      if pos' = pos then (halfOf w pos).map (Half.occupy occupied) else halfOf w pos' := by
  unfold setHalfOccupied
  cases hhalf : halfOf w pos with
  | none =>
    have hnone : occupiedId w occupied pos = none := by
      by_contra hsome
      obtain ⟨newId, hnew⟩ := Option.ne_none_iff_exists'.mp hsome
      simp only [occupiedId, Option.bind_eq_bind, Option.bind_eq_some_iff] at hnew
      obtain ⟨id, hid, name, hname, hnew⟩ := hnew
      split at hnew
      · rename_i hbed
        obtain ⟨shape, hshape⟩ := readHalf_isSome ht hname hbed
        rw [halfOf, hid, Option.bind_some, hshape] at hhalf
        cases hhalf
      · cases hnew
    rw [hnone]
    refine ⟨rfl, fun pos' => ?_⟩
    by_cases heq : pos' = pos
    · rw [if_pos heq, heq, Option.map_none]
      exact hhalf
    · rw [if_neg heq]
  | some half =>
    obtain ⟨id, hid, hname, hbed, hproperties⟩ := halfOf_eq_some.mp hhalf
    obtain ⟨newId, hnew, hread⟩ := readHalf_stateId ht (readHalf_eq_some.mpr ⟨hname, hbed, hproperties⟩)
      { half.shape with occupied := occupied }
    have hsome : occupiedId w occupied pos = some newId := by
      simp only [occupiedId, hid, hname, hbed, hproperties, Option.bind_eq_bind, Option.bind_some,
        Option.getD_some, setValue_occupied, if_true, hnew]
    rw [hsome]
    have hid0 : id ≠ 0 := by
      intro hzero
      rw [hzero] at hname
      rw [ht.nothing _ hname] at hbed
      cases hbed
    obtain ⟨-, hregistry, hcells⟩ := World.getBlockLoaded_setBlock hid hid0 newId
    refine ⟨hregistry, fun pos' => ?_⟩
    dsimp only
    rw [halfOf, blockAt, hcells, hregistry]
    by_cases heq : pos' = pos
    · rw [if_pos heq, if_pos (by rw [heq]), Option.bind_some, hread, Option.map_some]
      rfl
    · rw [if_neg heq, if_neg heq]
      rfl

theorem Half.headPos_partner (half : Half) (pos : BlockPos) :
    half.partner.headPos (half.partnerPos pos) = half.headPos pos := by
  unfold Half.headPos Half.partnerPos Half.partner Half.offset
  cases half.shape.part <;> simp [Part.other]

/-- The halves of the bed whose head is at `head` are the head and its foot. -/
theorem Paired.headPos_eq_iff (hp : Paired w) {bed : Half} (hbed : halfOf w head = some bed)
    (hhead : bed.shape.part = .head) (h : halfOf w pos = some half) :
    half.headPos pos = head ↔ pos = bed.partnerPos head ∨ pos = head := by
  constructor
  · intro heq
    cases hpart : half.shape.part with
    | head => exact .inr (by rwa [Half.headPos, hpart] at heq)
    | foot =>
      have hpartner := hp pos half h
      rw [Half.headPos, hpart] at heq
      rw [Half.partnerPos, hpart, heq, hbed] at hpartner
      rw [Option.some.inj hpartner, Half.partnerPos, Half.partner, hpart, ← heq]
      exact .inl (by simp [Part.other, Half.offset])
  · intro hpos
    rcases hpos with heq | heq
    · have hpartner := hp head bed hbed
      rw [← heq, h] at hpartner
      rw [Option.some.inj hpartner, heq, Half.headPos_partner, Half.headPos, hhead]
    · rw [heq, hbed] at h
      rw [← Option.some.inj h, Half.headPos, hhead, heq]

theorem halfOf_setBedOccupied (ht : BedTable w.registry) (hp : Paired w) {bed : Half}
    (hbed : halfOf w head = some bed) (hhead : bed.shape.part = .head) (occupied : Bool) :
    (setBedOccupied w head occupied).registry = w.registry ∧
      ∀ pos, halfOf (setBedOccupied w head occupied) pos = (halfOf w pos).map fun half =>
        if half.headPos pos = head then half.occupy occupied else half := by
  rw [setBedOccupied, footOf_half hbed hhead, List.foldl_cons, List.foldl_cons, List.foldl_nil]
  obtain ⟨hregistry, hfoot⟩ := setHalfOccupied_spec ht occupied (bed.partnerPos head)
  obtain ⟨hregistry', hboth⟩ := setHalfOccupied_spec (hregistry ▸ ht) occupied head
  refine ⟨hregistry'.trans hregistry, fun pos => ?_⟩
  have hne : head ≠ bed.partnerPos head := by
    rw [Half.partnerPos, hhead]
    intro heq
    exact bed.offset_level.2 (sub_eq_self.mp heq.symm)
  rw [hboth]
  cases hpos : halfOf w pos with
  | none =>
    have hhead' : pos ≠ head := fun heq => by rw [heq, hbed] at hpos; exact nomatch hpos
    rw [if_neg hhead', hfoot]
    split
    · rename_i heq
      rw [← heq, hpos]
      rfl
    · exact hpos
  | some half =>
    rw [Option.map_some]
    have hiff := hp.headPos_eq_iff hbed hhead hpos
    by_cases heq : pos = head
    · rw [if_pos heq, if_pos (hiff.mpr (.inr heq)), hfoot, if_neg hne, ← heq, hpos, Option.map_some]
    · rw [if_neg heq, hfoot]
      by_cases hfootEq : pos = bed.partnerPos head
      · rw [if_pos hfootEq, if_pos (hiff.mpr (.inl hfootEq)), ← hfootEq, hpos, Option.map_some]
      · rw [if_neg hfootEq, if_neg fun h => (hiff.mp h).elim hfootEq heq, hpos]

/-- Writing `occupied` leaves the halves of the beds where they are. -/
theorem Paired.setBedOccupied (ht : BedTable w.registry) (hp : Paired w) {bed : Half}
    (hbed : halfOf w head = some bed) (hhead : bed.shape.part = .head) (occupied : Bool) :
    Paired (setBedOccupied w head occupied) := by
  obtain ⟨-, hhalves⟩ := halfOf_setBedOccupied ht hp hbed hhead occupied
  intro pos half h
  rw [hhalves, Option.map_eq_some_iff] at h
  obtain ⟨before, hbefore, heq⟩ := h
  have hpartner := hp pos before hbefore
  split at heq
  · rename_i hin
    subst heq
    rw [hhalves, show (before.occupy occupied).partnerPos pos = before.partnerPos pos from rfl, hpartner,
      Option.map_some, if_pos ((before.headPos_partner pos).trans hin)]
    rfl
  · rename_i hout
    subst heq
    rw [hhalves, hpartner, Option.map_some, if_neg fun h => hout ((before.headPos_partner pos).symm.trans h)]

end Apoptosis.L2.Sleep
