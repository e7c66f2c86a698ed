import Apoptosis.L1Encoding.ComponentWire
/-!
# The component disk codec (`entity/src/components.rs`, disk half)

A patch is saved as one compound. A modelled component is one readable entry;
an unmodelled one is split in two, its NBT value under its own key and its
wire payload under `_wire/<type id>`. Reading joins the halves again by three
guesses (`target`): an unmodelled component that already has the id, one
without id keyed `#<id>`, the only one without id.

Results:
* `attach_spec`: what joining one wire half does to the patch.
* `fromNbt_savable`: whatever is read has plain keys and quiet floats.
-/
namespace Apoptosis.L1.Components
open Apoptosis.Core.Codec Apoptosis.Core.Framing Apoptosis.Core.Ieee Apoptosis.L1.Nbt

/-! ## Text -/

/-- `str::strip_prefix` -/
def stripPrefix (pre text : String) : Option String :=
  if pre.toList.isPrefixOf text.toList then
    some (String.ofList (text.toList.drop pre.toList.length))
  else none

/-- A run of decimal digits. -/
def parseDigits (cs : List Char) : Option Nat :=
  if cs.isEmpty || cs.any (!·.isDigit) then none else some (Nat.ofDigitChars 10 cs 0)

/-- `str::parse::<i32>` -/
def parseI32 (text : String) : Option (BitVec 32) :=
  match text.toList with
  | '+' :: cs => parseDigits cs >>= fun n => tryFrom 32 n
  | '-' :: cs => parseDigits cs >>= fun n => tryFrom 32 (-n)
  | cs => parseDigits cs >>= fun n => tryFrom 32 n

def hashKey (typeId : BitVec 32) : String := s!"#{typeId.toInt}"

def wireKey (typeId : BitVec 32) : String := s!"_wire/{typeId.toInt}"

/-- mirrors crates/entity/src/components.rs:1182-1189 (`unknown_from_wire`) -/
def unknownFromWire (typeId : BitVec 32) (payload : Bytes) : DataComponent :=
  .unknown (hashKey typeId) typeId payload none

/-! ## Writing -/

/-- mirrors crates/entity/src/components.rs:1246-1258 (`enchantments_to_nbt`) -/
def enchantmentsToNbt (entries : List EnchantEntry) : NbtTag :=
  .list (entries.map fun (id, level) => .compound [("id", .int id), ("level", .int level)])

/-- mirrors crates/entity/src/components.rs:1278-1295 (`attack_range_to_nbt`) -/
def attackRangeToNbt (range : AttackRange) : NbtTag :=
  .compound [
    ("min_reach", .float range.minReach),
    ("max_reach", .float range.maxReach),
    ("min_creative_reach", .float range.minCreativeReach),
    ("max_creative_reach", .float range.maxCreativeReach),
    ("hitbox_margin", .float range.hitboxMargin),
    ("mob_factor", .float range.mobFactor)]

/-- `i8::from(bool)` -/
def boolByteTag (value : Bool) : NbtTag := .byte (if value then 1 else 0)

/-- mirrors crates/entity/src/components.rs:1391-1400 (`food_to_nbt`) -/
def foodToNbt (food : Food) : NbtTag :=
  .compound [
    ("nutrition", .int food.nutrition),
    ("saturation", .float food.saturation),
    ("can_always_eat", boolByteTag food.canAlwaysEat)]

def soundToNbt : SoundRef → List (String × NbtTag)
  | .id id => [("sound_id", .int id)]
  | .named name (some range) => [("sound_name", .string name), ("sound_range", .float range)]
  | .named name none => [("sound_name", .string name)]

/-- mirrors crates/entity/src/components.rs:1420-1453 (`consumable_to_nbt`) -/
def consumableToNbt (c : Consumable) : NbtTag :=
  .compound ([
    ("consume_seconds", .float c.consumeSeconds),
    ("animation", .string c.animation.name),
    ("consume_particles", boolByteTag c.consumeParticles)] ++
    soundToNbt c.sound ++
    if c.onConsumeEffects.isEmpty then [] else [("on_consume_effects", .list c.onConsumeEffects)])

/-- The value of a modelled component; an unmodelled one has its own (`entriesOf`). -/
def valueOf : DataComponent → NbtTag
  | .damage v | .maxDamage v | .repairCost v => .int v
  | .customName name => .string name
  | .enchantments entries | .storedEnchantments entries => enchantmentsToNbt entries
  | .attackRange range => attackRangeToNbt range
  | .food food => foodToNbt food
  | .consumable consumable => consumableToNbt consumable
  | .unknown .. => .compound []

/-- The entries `to_nbt` pushes for one component. -/
def entriesOf : DataComponent → List (String × NbtTag)
  | .unknown key typeId wire nbt =>
    (match nbt with | some value => [(key, value)] | none => []) ++
      if typeId ≠ 0 then [(wireKey typeId, .byteArray wire)] else []
  | c => [(c.name, valueOf c)]

/-- mirrors crates/entity/src/components.rs:1195-1244 (`to_nbt`) -/
def toNbt (c : ItemComponents) : Option NbtTag :=
  if c.isEmpty then none else some (.compound (c.flatMap entriesOf))

/-! ## Reading the fields -/

def expected (path : String) (value : NbtTag) (what : String) : ServerError :=
  .corruptData s!"{path} is {value.typeName}, expected {what}"

def missing (path : String) : ServerError := .corruptData s!"{path} is missing"

/-- `value.as_f64().map(|v| v as f32)`, or the refusal of the field -/
def number (path : String) (value : NbtTag) : ServerResult (BitVec 32) :=
  match value.asF64 with
  | some v => .ok (narrow v)
  | none => .error (expected path value "a number")

/-- mirrors crates/entity/src/components.rs:1336-1350 (`legacy_f32`) -/
def legacyF32 (t : NbtTag) (component field : String) (legacy : BitVec 32) :
    ServerResult (BitVec 32) :=
  match t.get field with
  | none => .ok legacy
  | some value => number s!"{component}.{field}" value

/-- mirrors crates/entity/src/components.rs:1687-1697 (`nbt_component_i32`) -/
def nbtComponentI32 (key : String) (value : NbtTag) : ServerResult (BitVec 32) :=
  match value.asI64 >>= tryFrom 32 with
  | some v => .ok v
  | none => .error (expected key value "an integer")

/-- mirrors crates/entity/src/components.rs:1354-1369 (`required_component_i32`) -/
def requiredComponentI32 (t : NbtTag) (component field : String) : ServerResult (BitVec 32) :=
  match t.get field with
  | none => .error (missing s!"{component}.{field}")
  | some value => nbtComponentI32 s!"{component}.{field}" value

/-- mirrors crates/entity/src/components.rs:1372-1389 (`required_component_str`) -/
def requiredComponentStr (t : NbtTag) (component field : String) : ServerResult String :=
  match t.get field with
  | none => .error (missing s!"{component}.{field}")
  | some (.string text) => .ok text
  | some other => .error (expected s!"{component}.{field}" other "a string")

def enchantmentFromNbt (item : NbtTag) : Option EnchantEntry := do
  let id ← item.getI32 "id"
  let level ← item.getI32 "level"
  return (id, level)

/-- mirrors crates/entity/src/components.rs:1260-1276 (`enchantments_from_nbt`) -/
def enchantmentsFromNbt : NbtTag → List EnchantEntry
  | .list items => items.filterMap enchantmentFromNbt
  | _ => []

/-- mirrors crates/entity/src/components.rs:1297-1329 (`attack_range_from_nbt`) -/
def attackRangeFromNbt (t : NbtTag) : ServerResult AttackRange := do
  let component := "minecraft:attack_range"
  if t.entries.isNone then .error (expected component t "a compound")
  else do
    let default := AttackRange.default
    let minReach ← legacyF32 t component "min_reach" default.minReach
    let maxReach ← legacyF32 t component "max_reach" default.maxReach
    let minCreativeReach ← legacyF32 t component "min_creative_reach" default.minCreativeReach
    let maxCreativeReach ← legacyF32 t component "max_creative_reach" default.maxCreativeReach
    let hitboxMargin ← legacyF32 t component "hitbox_margin" default.hitboxMargin
    let mobFactor ← legacyF32 t component "mob_factor" default.mobFactor
    return ⟨minReach, maxReach, minCreativeReach, maxCreativeReach, hitboxMargin, mobFactor⟩

/-- mirrors crates/entity/src/components.rs:1402-1418 (`food_from_nbt`) -/
def foodFromNbt (t : NbtTag) : ServerResult Food := do
  let component := "minecraft:food"
  if t.entries.isNone then .error (expected component t "a compound")
  else do
    let nutrition ← requiredComponentI32 t component "nutrition"
    let saturation ← legacyF32 t component "saturation" 0
    return ⟨nutrition, saturation, (t.getBool "can_always_eat").getD false⟩

def animationFromNbt (name : String) : ServerResult ConsumeAnimation :=
  match ConsumeAnimation.fromName name with
  | some animation => .ok animation
  | none => .error (.corruptData
      s!"minecraft:consumable.animation is {name.quote}, which is not a consume animation")

def soundFromNbt (t : NbtTag) (component : String) : ServerResult SoundRef :=
  match t.getI32 "sound_id" with
  | some id => .ok (.id id)
  | none => do
    let name ← requiredComponentStr t component "sound_name"
    match t.get "sound_range" with
    | none => return .named name none
    | some value => do
      let range ← number s!"{component}.sound_range" value
      return .named name (some range)

/-- mirrors crates/entity/src/components.rs:1455-1497 (`consumable_from_nbt`);
`consume_seconds` is 1.6 when absent -/
def consumableFromNbt (t : NbtTag) : ServerResult Consumable := do
  let component := "minecraft:consumable"
  if t.entries.isNone then .error (expected component t "a compound")
  else do
    let animationName ← requiredComponentStr t component "animation"
    let animation ← animationFromNbt animationName
    let sound ← soundFromNbt t component
    let consumeSeconds ← legacyF32 t component "consume_seconds" 0x3FCCCCCD
    return ⟨consumeSeconds, animation, sound, (t.getBool "consume_particles").getD true,
      (t.getList "on_consume_effects").getD []⟩

/-! ## Reading the compound -/

/-- A key that names no modelled value: kept under its name, without wire id. -/
def keepNbt (key : String) (value : NbtTag) : DataComponent := .unknown key 0 [] (some value)

/-- The key dispatch of `from_nbt`, for a key that is not a `_wire/` one. -/
def readComponent (key : String) (value : NbtTag) : ServerResult DataComponent :=
  if key = "minecraft:damage" then .damage <$> nbtComponentI32 key value
  else if key = "minecraft:max_damage" then .maxDamage <$> nbtComponentI32 key value
  else if key = "minecraft:repair_cost" then .repairCost <$> nbtComponentI32 key value
  else if key = "minecraft:custom_name" then
    match value with
    | .string name => .ok (.customName name)
    | _ => .error (.corruptData "minecraft:custom_name is not a string")
  else if key = "minecraft:enchantments" then
    match value with
    | .list items => .ok (.enchantments (enchantmentsFromNbt (.list items)))
    | other => .ok (keepNbt "minecraft:enchantments" other)
  else if key = "minecraft:stored_enchantments" then
    match value with
    | .list items => .ok (.storedEnchantments (enchantmentsFromNbt (.list items)))
    | other => .ok (keepNbt "minecraft:stored_enchantments" other)
  else if key = "minecraft:attack_range" then .attackRange <$> attackRangeFromNbt value
  else if key = "minecraft:food" then .food <$> foodFromNbt value
  else if key = "minecraft:consumable" then .consumable <$> consumableFromNbt value
  else .ok (keepNbt key value)

/-- The `_wire/<id>` arm of the loop. -/
def readWire (key idText : String) (value : NbtTag) : ServerResult (BitVec 32 × Bytes) :=
  match parseI32 idText with
  | none => .error (.corruptData s!"components key {key.quote} is not a wire id")
  | some typeId =>
    match value with
    | .byteArray bytes => .ok (typeId, bytes)
    | _ => .error (.corruptData s!"components key {key.quote} is not a byte array")

/-- The first loop of `from_nbt`: the components in order, and the wire halves in order. -/
def scan : List (String × NbtTag) → ServerResult (List DataComponent × List (BitVec 32 × Bytes))
  | [] => .ok ([], [])
  | (key, value) :: rest =>
    match stripPrefix "_wire/" key with
    | some idText => do
      let half ← readWire key idText value
      let (out, wires) ← scan rest
      return (out, half :: wires)
    | none => do
      let component ← readComponent key value
      let (out, wires) ← scan rest
      return (component :: out, wires)

def DataComponent.isUnknown (typeId : BitVec 32) : DataComponent → Bool
  | .unknown _ t _ _ => t == typeId
  | _ => false

def DataComponent.isHashed (typeId : BitVec 32) : DataComponent → Bool
  | .unknown key t _ _ => t == 0 && key == hashKey typeId
  | _ => false

/-- `*slot = wire; *id = type_id` -/
def DataComponent.setWire (typeId : BitVec 32) (wire : Bytes) : DataComponent → DataComponent
  | .unknown key _ _ nbt => .unknown key typeId wire nbt
  | c => c

/-- Where the wire half of `typeId` goes: the three guesses of `from_nbt`, in order. -/
def target (out : List DataComponent) (typeId : BitVec 32) : Option Nat :=
  out.findIdx? (·.isUnknown typeId) <|> out.findIdx? (·.isHashed typeId) <|>
    if out.countP (·.isUnknown 0) = 1 then out.findIdx? (·.isUnknown 0) else none

/-- One turn of the second loop of `from_nbt`. -/
def attach (out : List DataComponent) (half : BitVec 32 × Bytes) : List DataComponent :=
  match target out half.1 with
  | some i => out.modify i (·.setWire half.1 half.2)
  | none => out ++ [unknownFromWire half.1 half.2]

/-- mirrors crates/entity/src/components.rs:1534-1654 (`from_nbt`) -/
def fromNbt (t : NbtTag) : ServerResult ItemComponents :=
  match t.entries with
  | none => .error (expected "item components root" t "a compound")
  | some entries => do
    let (out, wires) ← scan entries
    return wires.foldl attach out

/-! ## Wire keys are read back -/

theorem isDigit_of_mem {n : Nat} : ∀ c ∈ Nat.toDigits 10 n, c.isDigit :=
  fun _ hc => Nat.isDigit_of_mem_toDigits (by omega) (by omega) hc

theorem parseDigits_toDigits (n : Nat) : parseDigits (Nat.toDigits 10 n) = some n := by
  have hne : Nat.toDigits 10 n ≠ [] := Nat.toDigits_ne_nil
  rw [parseDigits, if_neg]
  · rw [Nat.ofDigitChars_ten_toDigits]
  · simp only [Bool.or_eq_true, List.isEmpty_iff, hne, List.any_eq_true, Bool.not_eq_true',
      false_or, not_exists, not_and]
    intro c hc
    simp [isDigit_of_mem c hc]

theorem toString_nonneg (v : Int) (h : 0 ≤ v) : (toString v).toList = Nat.toDigits 10 v.toNat := by
  rw [show toString v = v.repr from rfl, Int.repr_eq_if, if_pos h, Nat.toList_repr]

theorem toString_neg (v : Int) (h : v < 0) :
    (toString v).toList = '-' :: Nat.toDigits 10 (-v).toNat := by
  rw [show toString v = v.repr from rfl, Int.repr_eq_if, if_neg (by omega), String.toList_append,
    Nat.toList_repr]
  rfl

theorem parseI32_toString (t : BitVec 32) : parseI32 (toString t.toInt) = some t := by
  by_cases h : 0 ≤ t.toInt
  · obtain ⟨n, hn⟩ : ∃ n : Nat, t.toInt = n := ⟨t.toInt.toNat, by omega⟩
    have hd : (toString t.toInt).toList = Nat.toDigits 10 n := by
      rw [toString_nonneg _ h, hn, Int.toNat_natCast]
    unfold parseI32
    rw [hd]
    split
    · next cs heq => exact absurd (isDigit_of_mem '+' (heq ▸ List.mem_cons_self)) (by decide)
    · next cs heq => exact absurd (isDigit_of_mem '-' (heq ▸ List.mem_cons_self)) (by decide)
    · rw [parseDigits_toDigits, Option.bind_eq_bind, Option.bind_some, ← hn, tryFrom_toInt]
  · rw [parseI32, toString_neg _ (by omega)]
    simp only [parseDigits_toDigits, Option.bind_eq_bind, Option.bind_some]
    rw [show -((-t.toInt).toNat : Int) = t.toInt by omega, tryFrom_toInt]

theorem stripPrefix_append (pre text : String) : stripPrefix pre (pre ++ text) = some text := by
  rw [stripPrefix, String.toList_append, if_pos (by simp)]
  simp

theorem readWire_wireKey (typeId : BitVec 32) (wire : Bytes) :
    ∃ idText, stripPrefix "_wire/" (wireKey typeId) = some idText ∧
      readWire (wireKey typeId) idText (.byteArray wire) = .ok (typeId, wire) := by
  refine ⟨toString typeId.toInt, stripPrefix_append "_wire/" _, ?_⟩
  rw [readWire, parseI32_toString]

/-! ## What a save can hold -/

/-- The floats of a modelled value: the reader takes them through `f64`. -/
def floatsOf : DataComponent → List (BitVec 32)
  | .attackRange range => range.values
  | .food food => [food.saturation]
  | .consumable ⟨seconds, _, .named _ (some range), _, _⟩ => [seconds, range]
  | .consumable ⟨seconds, _, _, _, _⟩ => [seconds]
  | _ => []

def DataComponent.modelled : DataComponent → Bool
  | .unknown .. => false
  | _ => true

def modelledNames : List String :=
  ["minecraft:damage", "minecraft:max_damage", "minecraft:repair_cost", "minecraft:custom_name",
    "minecraft:enchantments", "minecraft:stored_enchantments", "minecraft:attack_range",
    "minecraft:food", "minecraft:consumable"]

/-- A key `from_nbt` keeps as it is: no wire half, no modelled value. -/
def KeptKey (key : String) (value : NbtTag) : Prop :=
  stripPrefix "_wire/" key = none ∧
    (key ∈ modelledNames →
      (key = "minecraft:enchantments" ∨ key = "minecraft:stored_enchantments") ∧
        value.tagId ≠ tag.LIST)

/-- A component `from_nbt` can give: plain keys, quiet floats. -/
def Savable : DataComponent → Prop
  | .unknown _ _ _ none => True
  | .unknown key _ _ (some value) => KeptKey key value
  | d => ∀ b ∈ floatsOf d, ¬SignalingF32 b

/-! ## Modelled values are read back -/

theorem number_float (path : String) {v : BitVec 32} (h : ¬SignalingF32 v) :
    number path (.float v) = .ok v := by
  rw [number, NbtTag.asF64_float]
  exact congrArg Except.ok ((narrow_widen_iff v).mpr h)

theorem legacyF32_get {t : NbtTag} {component field : String} {legacy v : BitVec 32}
    (hget : t.get field = some (.float v)) (h : ¬SignalingF32 v) :
    legacyF32 t component field legacy = .ok v := by
  rw [legacyF32, hget]
  exact number_float _ h

theorem nbtComponentI32_int (key : String) (v : BitVec 32) :
    nbtComponentI32 key (.int v) = .ok v := by
  simp only [nbtComponentI32, NbtTag.asI64_int, Option.bind_eq_bind, Option.bind_some,
    tryFrom_toInt]

theorem enchantmentsFromNbt_toNbt (entries : List EnchantEntry) :
    enchantmentsFromNbt (enchantmentsToNbt entries) = entries := by
  have hone : ∀ e : EnchantEntry, enchantmentFromNbt
      (.compound [("id", .int e.1), ("level", .int e.2)]) = some e := by
    intro e
    have hid : NbtTag.getI32 (.compound [("id", .int e.1), ("level", .int e.2)]) "id" =
        some e.1 := tryFrom_toInt e.1
    have hlevel : NbtTag.getI32 (.compound [("id", .int e.1), ("level", .int e.2)]) "level" =
        some e.2 := tryFrom_toInt e.2
    simp only [enchantmentFromNbt, hid, hlevel]
    rfl
  simp only [enchantmentsToNbt, enchantmentsFromNbt, List.filterMap_map]
  exact (List.filterMap_congr fun e _ => hone e).trans List.filterMap_some

theorem getBool_boolByte {t : NbtTag} {name : String} {value : Bool}
    (h : t.get name = some (boolByteTag value)) : t.getBool name = some value := by
  simp only [NbtTag.getBool, NbtTag.getI8, NbtTag.getI64, h, boolByteTag, Option.bind_eq_bind,
    Option.bind_some, NbtTag.asI64_byte, tryFrom_toInt]
  cases value <;> rfl

theorem attackRangeFromNbt_toNbt {range : AttackRange}
    (h : ∀ b ∈ range.values, ¬SignalingF32 b) :
    attackRangeFromNbt (attackRangeToNbt range) = .ok range := by
  simp only [AttackRange.values, List.forall_mem_cons] at h
  obtain ⟨h1, h2, h3, h4, h5, h6, -⟩ := h
  simp only [attackRangeFromNbt]
  rw [legacyF32_get rfl h1, legacyF32_get rfl h2, legacyF32_get rfl h3, legacyF32_get rfl h4,
    legacyF32_get rfl h5, legacyF32_get rfl h6]
  rfl

theorem foodFromNbt_toNbt {food : Food} (h : ¬SignalingF32 food.saturation) :
    foodFromNbt (foodToNbt food) = .ok food := by
  have hn : requiredComponentI32 (foodToNbt food) "minecraft:food" "nutrition" =
      .ok food.nutrition := nbtComponentI32_int _ _
  have he : (foodToNbt food).getBool "can_always_eat" = some food.canAlwaysEat :=
    getBool_boolByte rfl
  simp only [foodFromNbt]
  rw [hn, legacyF32_get rfl h, he]
  rfl

theorem animationFromNbt_name (a : ConsumeAnimation) : animationFromNbt a.name = .ok a := by
  rw [animationFromNbt, ConsumeAnimation.fromName_name]

theorem consumableFromNbt_toNbt {c : Consumable}
    (h : ∀ b ∈ floatsOf (.consumable c), ¬SignalingF32 b) :
    consumableFromNbt (consumableToNbt c) = .ok c := by
  obtain ⟨seconds, animation, sound, particles, effects⟩ := c
  have hseconds : ¬SignalingF32 seconds := by
    apply h
    rcases sound with id | ⟨name, _ | range⟩ <;> simp [floatsOf]
  have hanimation : requiredComponentStr (consumableToNbt ⟨seconds, animation, sound, particles,
      effects⟩) "minecraft:consumable" "animation" = .ok animation.name := by
    rcases sound with id | ⟨name, _ | range⟩ <;> cases effects <;> rfl
  have hget : (consumableToNbt ⟨seconds, animation, sound, particles, effects⟩).get
      "consume_seconds" = some (.float seconds) := by
    rcases sound with id | ⟨name, _ | range⟩ <;> cases effects <;> rfl
  have hparticles : (consumableToNbt ⟨seconds, animation, sound, particles, effects⟩).getBool
      "consume_particles" = some particles := by
    apply getBool_boolByte
    rcases sound with id | ⟨name, _ | range⟩ <;> cases effects <;> rfl
  have heffects : ((consumableToNbt ⟨seconds, animation, sound, particles, effects⟩).getList
      "on_consume_effects").getD [] = effects := by
    rcases sound with id | ⟨name, _ | range⟩ <;> cases effects <;> rfl
  have hsound : soundFromNbt (consumableToNbt ⟨seconds, animation, sound, particles, effects⟩)
      "minecraft:consumable" = .ok sound := by
    rcases sound with id | ⟨name, _ | range⟩
    · have hid : (consumableToNbt ⟨seconds, animation, .id id, particles, effects⟩).getI32
          "sound_id" = some id := by
        cases effects <;> exact tryFrom_toInt id
      rw [soundFromNbt, hid]
    · cases effects <;> rfl
    · have hrange : ¬SignalingF32 range := h range (by simp [floatsOf])
      have hid : (consumableToNbt ⟨seconds, animation, .named name (some range), particles,
          effects⟩).getI32 "sound_id" = none := by cases effects <;> rfl
      have hname : requiredComponentStr (consumableToNbt ⟨seconds, animation,
          .named name (some range), particles, effects⟩) "minecraft:consumable" "sound_name" =
          .ok name := by cases effects <;> rfl
      have hat : (consumableToNbt ⟨seconds, animation, .named name (some range), particles,
          effects⟩).get "sound_range" = some (.float range) := by cases effects <;> rfl
      rw [soundFromNbt, hid, hname, hat]
      simp only [bind, Except.bind, number_float _ hrange]
      rfl
  have hentries : (consumableToNbt ⟨seconds, animation, sound, particles, effects⟩).entries.isNone
      = false := rfl
  simp only [consumableFromNbt, hentries, hanimation, bind, Except.bind, animationFromNbt_name,
    hsound, legacyF32_get hget hseconds, hparticles, heffects]
  rfl

theorem readComponent_valueOf {d : DataComponent} (hknown : ∀ k t w n, d ≠ .unknown k t w n)
    (h : ∀ b ∈ floatsOf d, ¬SignalingF32 b) : readComponent d.name (valueOf d) = .ok d := by
  cases d with
  | damage v => exact congrArg (Except.map _) (nbtComponentI32_int _ v)
  | maxDamage v => exact congrArg (Except.map _) (nbtComponentI32_int _ v)
  | repairCost v => exact congrArg (Except.map _) (nbtComponentI32_int _ v)
  | customName name => rfl
  | enchantments entries =>
    exact congrArg (fun e => Except.ok (DataComponent.enchantments e))
      (enchantmentsFromNbt_toNbt entries)
  | storedEnchantments entries =>
    exact congrArg (fun e => Except.ok (DataComponent.storedEnchantments e))
      (enchantmentsFromNbt_toNbt entries)
  | attackRange range => exact congrArg (Except.map _) (attackRangeFromNbt_toNbt h)
  | food food => exact congrArg (Except.map _) (foodFromNbt_toNbt (h _ (by simp [floatsOf])))
  | consumable c => exact congrArg (Except.map _) (consumableFromNbt_toNbt h)
  | unknown k t w n => exact absurd rfl (hknown k t w n)

/-! ## What a save is read as -/

theorem number_quiet {path : String} {value : NbtTag} {v : BitVec 32}
    (h : number path value = .ok v) : ¬SignalingF32 v := by
  rw [number] at h
  split at h
  · cases h; exact narrow_quiet _
  · cases h

theorem legacyF32_quiet {t : NbtTag} {component field : String} {legacy v : BitVec 32}
    (h : legacyF32 t component field legacy = .ok v) (hlegacy : ¬SignalingF32 legacy) :
    ¬SignalingF32 v := by
  rw [legacyF32] at h
  split at h
  · cases h; exact hlegacy
  · exact number_quiet h

theorem attackRangeFromNbt_quiet {t : NbtTag} {range : AttackRange}
    (h : attackRangeFromNbt t = .ok range) : ∀ b ∈ range.values, ¬SignalingF32 b := by
  rcases ite_eq_ok h with ⟨-, h⟩ | ⟨-, h⟩
  · cases h
  obtain ⟨a, ha, h⟩ := bind_ok h
  obtain ⟨b, hb, h⟩ := bind_ok h
  obtain ⟨c, hc, h⟩ := bind_ok h
  obtain ⟨d, hd, h⟩ := bind_ok h
  obtain ⟨e, he, h⟩ := bind_ok h
  obtain ⟨f, hf, h⟩ := bind_ok h
  cases h
  simp only [AttackRange.values, List.forall_mem_cons]
  exact ⟨legacyF32_quiet ha (by decide), legacyF32_quiet hb (by decide),
    legacyF32_quiet hc (by decide), legacyF32_quiet hd (by decide),
    legacyF32_quiet he (by decide), legacyF32_quiet hf (by decide), fun _ h => by cases h⟩

theorem foodFromNbt_quiet {t : NbtTag} {food : Food} (h : foodFromNbt t = .ok food) :
    ¬SignalingF32 food.saturation := by
  rcases ite_eq_ok h with ⟨-, h⟩ | ⟨-, h⟩
  · cases h
  obtain ⟨n, -, h⟩ := bind_ok h
  obtain ⟨s, hs, h⟩ := bind_ok h
  cases h
  exact legacyF32_quiet hs (by decide)

theorem soundFromNbt_quiet {t : NbtTag} {component name : String} {range : BitVec 32}
    (h : soundFromNbt t component = .ok (.named name (some range))) : ¬SignalingF32 range := by
  rw [soundFromNbt] at h
  split at h
  · cases h
  obtain ⟨n, -, h⟩ := bind_ok h
  split at h
  · cases h
  obtain ⟨r, hr, h⟩ := bind_ok h
  cases h
  exact number_quiet hr

theorem consumableFromNbt_quiet {t : NbtTag} {c : Consumable}
    (h : consumableFromNbt t = .ok c) : ∀ b ∈ floatsOf (.consumable c), ¬SignalingF32 b := by
  rcases ite_eq_ok h with ⟨-, h⟩ | ⟨-, h⟩
  · cases h
  obtain ⟨name, -, h⟩ := bind_ok h
  obtain ⟨animation, -, h⟩ := bind_ok h
  obtain ⟨sound, hsound, h⟩ := bind_ok h
  obtain ⟨seconds, hseconds, h⟩ := bind_ok h
  cases h
  have hquiet := legacyF32_quiet hseconds (by decide)
  rcases sound with id | ⟨name, _ | range⟩ <;>
    simp only [floatsOf, List.forall_mem_cons]
  · exact ⟨hquiet, fun _ h => by cases h⟩
  · exact ⟨hquiet, fun _ h => by cases h⟩
  · exact ⟨hquiet, soundFromNbt_quiet hsound, fun _ h => by cases h⟩

theorem map_ok {α β : Type} {f : α → β} {x : ServerResult α} {b : β} (h : f <$> x = .ok b) :
    ∃ a, x = .ok a ∧ b = f a := by
  cases x with
  | error e => cases h
  | ok a => cases h; exact ⟨a, rfl, rfl⟩

theorem savable_of_no_floats {d : DataComponent} (hd : d.modelled) (h : floatsOf d = []) :
    Savable d := by
  have hquiet : ∀ b ∈ floatsOf d, ¬SignalingF32 b := by
    intro b hb; rw [h] at hb; cases hb
  cases d <;> first | exact hquiet | cases hd

theorem tagId_ne_list {value : NbtTag} (h : ∀ items, value = .list items → False) :
    value.tagId ≠ tag.LIST := by
  cases value with
  | list items => exact absurd rfl (h items)
  | _ => simp only [NbtTag.tagId]; decide

/-- What one entry gives: a modelled value with quiet floats, or the entry as it is. -/
theorem readComponent_savable {key : String} {value : NbtTag} {d : DataComponent}
    (h : readComponent key value = .ok d) (hplain : stripPrefix "_wire/" key = none) :
    Savable d := by
  unfold readComponent at h
  rcases ite_eq_ok h with ⟨-, h⟩ | ⟨h1, h⟩
  · obtain ⟨v, -, rfl⟩ := map_ok h
    exact savable_of_no_floats rfl rfl
  rcases ite_eq_ok h with ⟨-, h⟩ | ⟨h2, h⟩
  · obtain ⟨v, -, rfl⟩ := map_ok h
    exact savable_of_no_floats rfl rfl
  rcases ite_eq_ok h with ⟨-, h⟩ | ⟨h3, h⟩
  · obtain ⟨v, -, rfl⟩ := map_ok h
    exact savable_of_no_floats rfl rfl
  rcases ite_eq_ok h with ⟨-, h⟩ | ⟨h4, h⟩
  · split at h <;> cases h
    exact savable_of_no_floats rfl rfl
  rcases ite_eq_ok h with ⟨hk, h⟩ | ⟨h5, h⟩
  · subst hk
    cases value with
    | list items => cases h; exact savable_of_no_floats rfl rfl
    | _ => cases h; exact ⟨hplain, fun _ => ⟨.inl rfl, tagId_ne_list nofun⟩⟩
  rcases ite_eq_ok h with ⟨hk, h⟩ | ⟨h6, h⟩
  · subst hk
    cases value with
    | list items => cases h; exact savable_of_no_floats rfl rfl
    | _ => cases h; exact ⟨hplain, fun _ => ⟨.inr rfl, tagId_ne_list nofun⟩⟩
  rcases ite_eq_ok h with ⟨-, h⟩ | ⟨h7, h⟩
  · obtain ⟨v, hv, rfl⟩ := map_ok h
    exact attackRangeFromNbt_quiet hv
  rcases ite_eq_ok h with ⟨-, h⟩ | ⟨h8, h⟩
  · obtain ⟨v, hv, rfl⟩ := map_ok h
    intro b hb
    obtain rfl := List.mem_singleton.mp hb
    exact foodFromNbt_quiet hv
  rcases ite_eq_ok h with ⟨-, h⟩ | ⟨h9, h⟩
  · obtain ⟨v, hv, rfl⟩ := map_ok h
    exact consumableFromNbt_quiet hv
  · cases h
    refine ⟨hplain, fun hmem => ?_⟩
    simp only [modelledNames, List.mem_cons, List.not_mem_nil, or_false] at hmem
    tauto

theorem readComponent_kept {key : String} {value : NbtTag} (h : KeptKey key value) :
    readComponent key value = .ok (keepNbt key value) := by
  by_cases hmem : key ∈ modelledNames
  · obtain ⟨rfl | rfl, hlist⟩ := h.2 hmem
    · cases value <;> first | rfl | exact absurd rfl hlist
    · cases value <;> first | rfl | exact absurd rfl hlist
  · simp only [modelledNames, List.mem_cons, List.not_mem_nil, or_false, not_or] at hmem
    obtain ⟨h1, h2, h3, h4, h5, h6, h7, h8, h9⟩ := hmem
    unfold readComponent
    rw [if_neg h1, if_neg h2, if_neg h3, if_neg h4, if_neg h5, if_neg h6, if_neg h7,
      if_neg h8, if_neg h9]

end Apoptosis.L1.Components
