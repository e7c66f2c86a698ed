import Apoptosis.Core.Aim
import Apoptosis.Core.Instances
import Apoptosis.L2Worldgen.Carver
/-!
# How far a carver reaches (`worldgen/src/carver.rs`)

`carve_chunk` walks the sources within eight chunks. A cave takes 48 steps of at most two blocks and
stays within them; the bound was derived from those, and a canyon takes 96.

* `system_cave`: the ellipsoids of a cave stay within 121 blocks of where its source begins.
* `canyon_leaves`: the last ellipsoids of a canyon lie more than eight chunks away.
* `continuous_iff`: the neighbourhood is enough exactly when no canyon can start.
-/
namespace Apoptosis.L2.Carver
open Apoptosis.Core Apoptosis.RandomDoubles Apoptosis.L2.Registry Apoptosis.L2.Storage Apoptosis.L2.Terrain
open Apoptosis.L2.Worldgen

/-! ## One step -/

section step
variable {R : Type} [RandomDoubles R] (carver : CarverConfig)

theorem taper_range {step steps : Nat} (h : step < steps) :
    0 ≤ 1 - (step : ℝ) / steps * 0.55 ∧ 1 - (step : ℝ) / steps * 0.55 ≤ 1 := by
  have hsteps : (0 : ℝ) < steps := by exact_mod_cast Nat.zero_lt_of_lt h
  have hpart : (step : ℝ) / steps ≤ 1 := (div_le_one hsteps).mpr (by exact_mod_cast h.le)
  have hpos : 0 ≤ (step : ℝ) / steps := by positivity
  constructor <;> linarith

theorem radius_le {base mult taper : ℝ} (hbase : 0 ≤ base ∧ base ≤ 6) (hmult : mult ≤ 2)
    (htaper : 0 ≤ taper ∧ taper ≤ 1) : base * mult * taper ≤ 12 := by
  have h : base * mult ≤ 12 := by nlinarith
  rcases le_total 0 (base * mult) with hpos | hneg <;> nlinarith

section
attribute [local instance] Apoptosis.Core.atLeastTwo

/-- The multipliers of the horizontal radius are at most two. -/
def Bounded : Prop :=
  carver.horizontalRadiusMultiplier.min ≤ 2 ∧ carver.horizontalRadiusMultiplier.max ≤ 2

end

/-- An ellipsoid lies around the walker, neither too narrow to hold a cell nor too wide. -/
theorem shape_spec {baseRadius : ℝ} {step : Nat} (walker : Walker) (random : R)
    (hcarver : Bounded carver) (hbase : 0 ≤ baseRadius ∧ baseRadius ≤ 6) (hstep : step < carver.kind.steps) :
    let e := (shape carver baseRadius step walker random).1
    e.cx = walker.x ∧ e.cz = walker.z ∧ 0.1 ≤ e.rx ∧ e.rx ≤ 12 ∧ 0.1 ≤ e.ry := by
  have hmult := carver.horizontalRadiusMultiplier.sample_le hcarver.1 hcarver.2 random
  have hradius := radius_le hbase hmult (taper_range hstep)
  unfold shape
  cases hkind : carver.kind <;> rw [hkind] at hradius
  · refine ⟨rfl, rfl, le_max_of_le_right (by norm_num), max_le hradius (by norm_num),
      le_max_of_le_right (by norm_num)⟩
  · refine ⟨rfl, rfl, le_max_of_le_right (by norm_num), max_le hradius (by norm_num),
      le_max_of_le_right (by norm_num)⟩

theorem stride_le (pitch : ℝ) : 0 ≤ STEP_LENGTH * max |Real.cos pitch| 0.15 ∧
    STEP_LENGTH * max |Real.cos pitch| 0.15 ≤ 2 := by
  have hcos : max |Real.cos pitch| 0.15 ≤ 1 := max_le (Real.abs_cos_le_one _) (by norm_num)
  have hpos : 0 ≤ max |Real.cos pitch| 0.15 := le_max_of_le_right (by norm_num)
  unfold STEP_LENGTH
  constructor <;> linarith

theorem abs_mul_le_two {a h : ℝ} (ha : |a| ≤ 1) (hh : 0 ≤ h ∧ h ≤ 2) : |a * h| ≤ 2 := by
  rw [abs_mul, abs_of_nonneg hh.1]
  nlinarith [abs_nonneg a]

/-- A step is at most two blocks long. -/
theorem advance_spec (walker : Walker) (random : R) :
    |(advance carver walker random).1.x - walker.x| ≤ 2 ∧
      |(advance carver walker random).1.z - walker.z| ≤ 2 := by
  unfold advance
  cases carver.kind
  all_goals
    constructor
    · refine (congrArg abs (add_sub_cancel_left _ _)).trans_le ?_
      exact abs_mul_le_two (Real.abs_cos_le_one _) (stride_le _)
    · refine (congrArg abs (add_sub_cancel_left _ _)).trans_le ?_
      exact abs_mul_le_two (Real.abs_sin_le_one _) (stride_le _)

end step

/-! ## A walk -/

section walk
variable {R : Type} [RandomDoubles R] {carver : CarverConfig}

theorem ellipsoids_succ (baseRadius : ℝ) (left step : Nat) (walker : Walker) (random : R) :
    ellipsoids carver baseRadius (left + 1) step walker random =
      (shape carver baseRadius step walker random).1 ::
        ellipsoids carver baseRadius left (step + 1)
          (advance carver walker (shape carver baseRadius step walker random).2).1
          (advance carver walker (shape carver baseRadius step walker random).2).2 := rfl

/-- Every ellipsoid of a walk lies within two blocks a step of its start. -/
theorem ellipsoids_reach {baseRadius : ℝ} (hcarver : Bounded carver)
    (hbase : 0 ≤ baseRadius ∧ baseRadius ≤ 6) {left step : Nat} (hsteps : step + left ≤ carver.kind.steps)
    (walker : Walker) (random : R) :
    ∀ e ∈ ellipsoids carver baseRadius left step walker random,
      |e.cx - walker.x| + 2 ≤ 2 * left ∧ |e.cz - walker.z| + 2 ≤ 2 * left ∧
        0.1 ≤ e.rx ∧ e.rx ≤ 12 ∧ 0.1 ≤ e.ry := by
  induction left generalizing step walker random with
  | zero => exact fun _ he => nomatch he
  | succ left ih =>
    intro e he
    rw [ellipsoids_succ, List.mem_cons] at he
    push_cast
    cases he with
    | inl he =>
      obtain ⟨hx, hz, hradius⟩ := shape_spec carver walker random hcarver hbase
        (show step < carver.kind.steps by omega)
      rw [he, hx, hz, sub_self, sub_self, abs_zero]
      have hleft : (0 : ℝ) ≤ left := Nat.cast_nonneg left
      exact ⟨by linarith, by linarith, hradius⟩
    | inr he =>
      obtain ⟨hx, hz⟩ := advance_spec carver walker (shape carver baseRadius step walker random).2
      obtain ⟨hex, hez, hradius⟩ := ih (by omega) _ _ e he
      have htx := abs_sub_le e.cx (advance carver walker (shape carver baseRadius step walker random).2).1.x
        walker.x
      have htz := abs_sub_le e.cz (advance carver walker (shape carver baseRadius step walker random).2).1.z
        walker.z
      exact ⟨by linarith, by linarith, hradius⟩

theorem nextBounded_range (random : R) :
    (0 : ℝ) ≤ (nextBounded 16 random).1 ∧ ((nextBounded 16 random).1 : ℝ) ≤ 15 := by
  obtain ⟨hlow, hhigh⟩ := bounded random 16 (by norm_num)
  exact ⟨by exact_mod_cast hlow, by exact_mod_cast Int.le_of_lt_add_one hhigh⟩

theorem start_eq (context : WorldgenContext) (carver : CarverConfig) (source : ChunkPos) (random : R) :
    let height := carver.y.sample context (nextBounded 16 (nextBounded 16 random).2).2
    let yaw := nextF64 height.2
    start context carver source random =
      ((⟨(saturate (source.x * 16) : ℝ) + 8 + (nextBounded 16 random).1 - 8, height.1,
        (saturate (source.z * 16) : ℝ) + 8 + (nextBounded 16 (nextBounded 16 random).2).1 - 8,
        yaw.1 * (2 * Real.pi), 0⟩,
        match carver.kind with
        | .cave => 1.5 + (nextF64 yaw.2).1 * 4.5
        | .canyon => 1.0 + (nextF64 yaw.2).1 * 2.0), (nextF64 yaw.2).2) := by
  unfold start
  cases carver.kind <;> rfl

/-- A walk starts inside its source chunk. -/
theorem start_spec (context : WorldgenContext) (carver : CarverConfig) (source : ChunkPos) (random : R) :
    let begin := (start context carver source random).1
    (saturate (source.x * 16) ≤ begin.1.x ∧ begin.1.x ≤ saturate (source.x * 16) + 15) ∧
      (saturate (source.z * 16) ≤ begin.1.z ∧ begin.1.z ≤ saturate (source.z * 16) + 15) ∧
      0 ≤ begin.2 ∧ begin.2 ≤ 6 := by
  have hx := nextBounded_range random
  have hz := nextBounded_range (nextBounded 16 random).2
  have heq := start_eq context carver source random
  dsimp only at heq
  have hradius := nextF64_range (nextF64
    (carver.y.sample context (nextBounded 16 (nextBounded 16 random).2).2).2).2
  rw [heq]
  refine ⟨⟨by dsimp only; linarith, by dsimp only; linarith⟩,
    ⟨by dsimp only; linarith, by dsimp only; linarith⟩, ?_⟩
  cases carver.kind
  · exact ⟨by dsimp only; linarith, by dsimp only; linarith⟩
  · exact ⟨by dsimp only; linarith, by dsimp only; linarith⟩

theorem walk_eq (context : WorldgenContext) (carver : CarverConfig) (source : ChunkPos) (random : R) :
    walk context carver source random =
      ellipsoids carver (start context carver source random).1.2 carver.kind.steps 0
        (start context carver source random).1.1 (start context carver source random).2 := rfl

theorem mem_system {featureRandom : Int → String → ChunkPos → Nat → R} {context : WorldgenContext}
    {source : ChunkPos} {e : Ellipsoid} : e ∈ system featureRandom context carver source ↔
      (nextF64 (carverRandom featureRandom context carver source)).1 < carver.probability ∧
        e ∈ walk context carver source (nextF64 (carverRandom featureRandom context carver source)).2 := by
  have heq : system featureRandom context carver source =
      open Classical in
      if carver.probability ≤ (nextF64 (carverRandom featureRandom context carver source)).1 then []
      else walk context carver source (nextF64 (carverRandom featureRandom context carver source)).2 := rfl
  rw [heq]
  split_ifs with hroll
  · exact ⟨fun he => (nomatch he), fun he => absurd hroll (not_le.mpr he.1)⟩
  · exact ⟨fun he => ⟨not_le.mp hroll, he⟩, fun he => he.2⟩

/-- A cave's ellipsoids lie between 106 blocks before their source and 121 after. -/
structure Within (source : ChunkPos) (e : Ellipsoid) : Prop where
  xLow : saturate (source.x * 16) - 106 ≤ e.cx - e.rx
  xHigh : e.cx + e.rx ≤ saturate (source.x * 16) + 121
  zLow : saturate (source.z * 16) - 106 ≤ e.cz - e.rx
  zHigh : e.cz + e.rx ≤ saturate (source.z * 16) + 121
  rx : 0.1 ≤ e.rx
  ry : 0.1 ≤ e.ry

theorem system_cave {featureRandom : Int → String → ChunkPos → Nat → R} {context : WorldgenContext}
    {source : ChunkPos} (hcarver : Bounded carver) (hkind : carver.kind = .cave) :
    ∀ e ∈ system featureRandom context carver source, Within source e := by
  intro e he
  obtain ⟨-, he⟩ := mem_system.mp he
  rw [walk_eq] at he
  obtain ⟨hx, hz, hbase⟩ := start_spec context carver source
    (nextF64 (carverRandom featureRandom context carver source)).2
  have hsteps : carver.kind.steps = 48 := by rw [hkind]; rfl
  obtain ⟨hex, hez, hrx, hrx', hry⟩ := ellipsoids_reach hcarver hbase (Nat.zero_add _).le _ _ e he
  rw [hsteps] at hex hez
  push_cast at hex hez
  have hax := abs_le.mp (show |e.cx - _| ≤ 94 by linarith)
  have haz := abs_le.mp (show |e.cz - _| ≤ 94 by linarith)
  exact ⟨by linarith, by linarith, by linarith, by linarith, hrx, hry⟩

end walk

/-! ## The cells of a chunk -/

/-- The cell lies in the column of the chunk. -/
def InChunk (pos : ChunkPos) (cell : Cell) : Prop := cell.x / 16 = pos.x ∧ cell.z / 16 = pos.z

/-- The chunk lies away from the bounds of thirty-two bit coordinates. -/
def Inland (pos : ChunkPos) : Prop :=
  (-2 ^ 31 + 256 ≤ pos.x * 16 ∧ pos.x * 16 ≤ 2 ^ 31 - 256) ∧
    (-2 ^ 31 + 256 ≤ pos.z * 16 ∧ pos.z * 16 ≤ 2 ^ 31 - 256)

/-- The source is one that `carve_chunk` walks. -/
def Near (pos source : ChunkPos) : Prop :=
  (pos.x - 8 ≤ source.x ∧ source.x ≤ pos.x + 8) ∧ (pos.z - 8 ≤ source.z ∧ source.z ≤ pos.z + 8)

theorem saturate_val (i : Int) : saturate i = max (-2 ^ 31) (min i (2 ^ 31 - 1)) := rfl

/-- A distance along one axis is at most the radius of an ellipsoid that holds the cell. -/
theorem axis_le {d r rest : ℝ} (hr : 0.1 ≤ r) (hrest : 0 ≤ rest)
    (h : d / max r 0.1 * (d / max r 0.1) + rest ≤ 1) : |d| ≤ r := by
  rw [max_eq_left hr] at h
  have hpos : 0 < r := by linarith
  have hsq : (d / r) ^ 2 ≤ 1 := by nlinarith
  have habs := (sq_le_one_iff_abs_le_one _).mp hsq
  rwa [abs_div, abs_of_pos hpos, div_le_one hpos] at habs

theorem clip_spec {i lo hi : Int} {c r : ℝ} (h : |(i : ℝ) + 0.5 - c| ≤ r) (hlow : lo ≤ i) (hhigh : i ≤ hi)
    (hi32 : -2 ^ 31 ≤ i ∧ i < 2 ^ 31) :
    (Ellipsoid.clip c r lo hi).1 ≤ i ∧ i ≤ (Ellipsoid.clip c r lo hi).2 := by
  obtain ⟨hl, hu⟩ := abs_le.mp h
  have hfloor : ⌊c - r⌋ ≤ i := by
    rw [← Int.lt_add_one_iff, Int.floor_lt]
    push_cast
    linarith
  have hceil : i ≤ ⌈c + r⌉ := by
    have hle := Int.le_ceil (c + r)
    have : (i : ℝ) ≤ (⌈c + r⌉ : ℝ) := by linarith
    exact_mod_cast this
  simp only [Ellipsoid.clip, saturate_val]
  omega

/-- Along one axis, an ellipsoid of a cave more than eight chunks away leaves the chunk out. -/
theorem clip_far {p s : Int} {c r : ℝ} (hp : -2 ^ 31 + 256 ≤ p * 16 ∧ p * 16 ≤ 2 ^ 31 - 256)
    (hlow : saturate (s * 16) - 106 ≤ c - r) (hhigh : c + r ≤ saturate (s * 16) + 121)
    (hfar : s < p - 8 ∨ p + 8 < s) :
    (Ellipsoid.clip c r (saturate (p * 16)) (saturate (p * 16) + 16 - 1)).2 <
      (Ellipsoid.clip c r (saturate (p * 16)) (saturate (p * 16) + 16 - 1)).1 := by
  have hfloor : saturate (s * 16) - 106 ≤ ⌊c - r⌋ := by
    rw [Int.le_floor]
    push_cast
    linarith
  have hceil : ⌈c + r⌉ ≤ saturate (s * 16) + 121 := by
    rw [Int.ceil_le]
    push_cast
    linarith
  simp only [Ellipsoid.clip, saturate_val] at hfloor hceil ⊢
  omega

/-! ## Caves -/

section caves
variable {R : Type} [RandomDoubles R] {featureRandom : Int → String → ChunkPos → Nat → R}
  {context : WorldgenContext} {pos source : ChunkPos} {e : Ellipsoid}

/-- The loops over an ellipsoid of a cave from further away do not run. -/
theorem ranges_far (hpos : Inland pos) (he : Within source e) (hfar : ¬ Near pos source) :
    (e.xRange pos).2 < (e.xRange pos).1 ∨ (e.zRange pos).2 < (e.zRange pos).1 := by
  have haxis : (source.x < pos.x - 8 ∨ pos.x + 8 < source.x) ∨
      (source.z < pos.z - 8 ∨ pos.z + 8 < source.z) := by
    unfold Near at hfar
    omega
  exact haxis.imp (clip_far hpos.1 he.xLow he.xHigh) (clip_far hpos.2 he.zLow he.zHigh)

/-- A cell of the chunk that an ellipsoid holds lies between the bounds of the loops. -/
theorem ranges_of_holds (hpos : Inland pos) (hrx : 0.1 ≤ e.rx) {cell : Cell}
    (hcell : InChunk pos cell) (hholds : e.Holds cell) :
    ((e.xRange pos).1 ≤ cell.x ∧ cell.x ≤ (e.xRange pos).2) ∧
      (e.zRange pos).1 ≤ cell.z ∧ cell.z ≤ (e.zRange pos).2 := by
  obtain ⟨hx, hz⟩ := hcell
  obtain ⟨hposx, hposz⟩ := hpos
  unfold Ellipsoid.Holds at hholds
  dsimp only at hholds
  have hax := axis_le hrx (add_nonneg (mul_self_nonneg _) (mul_self_nonneg _))
    (by rw [← add_assoc]; exact hholds)
  have haz := axis_le hrx (add_nonneg (mul_self_nonneg _) (mul_self_nonneg _))
    (by rw [add_comm]; exact hholds)
  exact ⟨clip_spec hax (by rw [saturate_val]; omega) (by rw [saturate_val]; omega) (by omega),
    clip_spec haz (by rw [saturate_val]; omega) (by rw [saturate_val]; omega) (by omega)⟩

/-- A cell of the world in the chunk that an ellipsoid holds is visited. -/
theorem mem_cells_of_holds (hpos : Inland pos) (hrx : 0.1 ≤ e.rx) (hry : 0.1 ≤ e.ry) {cell : Cell}
    (hcell : InChunk pos cell) (hholds : e.Holds cell) (hlow : context.minY.val ≤ cell.y)
    (hhigh : cell.y < context.effectiveMaxY) : cell ∈ e.cells context pos := by
  obtain ⟨hx, hz⟩ := ranges_of_holds hpos hrx hcell hholds
  unfold Ellipsoid.Holds at hholds
  dsimp only at hholds
  have hay := axis_le hry (add_nonneg (mul_self_nonneg _) (mul_self_nonneg _))
    (by rw [← add_assoc, add_comm (_ * _) (_ * _)]; exact hholds)
  have hmin := context.minY.property
  have hmax := (I32.clamp (context.minY.val + saturate (context.sectionCount * 16))).property.2
  have hmax' : context.effectiveMaxY < 2 ^ 31 := hmax
  exact Ellipsoid.mem_cells.mpr ⟨hx, clip_spec hay hlow (by omega) (by omega), hz⟩

/-! ## The neighbourhood -/

theorem mem_sources (hpos : Inland pos) (h : Near pos source) :
    source ∈ sources CARVER_SOURCE_RADIUS_CHUNKS pos := by
  obtain ⟨hx, hz⟩ := h
  obtain ⟨hposx, hposz⟩ := hpos
  unfold sources CARVER_SOURCE_RADIUS_CHUNKS
  rw [List.mem_flatMap]
  refine ⟨source.z - pos.z, Int.mem_range_iff.mpr (by omega), List.mem_map.mpr
    ⟨source.x - pos.x, Int.mem_range_iff.mpr (by omega), ?_⟩⟩
  have hsx : saturate (pos.x + (source.x - pos.x)) = source.x := by rw [saturate_val]; omega
  have hsz : saturate (pos.z + (source.z - pos.z)) = source.z := by rw [saturate_val]; omega
  rw [hsx, hsz]

theorem near_of_source {dx dz : Int} (hpos : Inland pos)
    (h : Near pos ⟨saturate (pos.x + dx), saturate (pos.z + dz)⟩) :
    (-8 ≤ dx ∧ dx ≤ 8) ∧ -8 ≤ dz ∧ dz ≤ 8 := by
  obtain ⟨hx, hz⟩ := h
  obtain ⟨hposx, hposz⟩ := hpos
  simp only [saturate_val] at hx hz
  omega

theorem range_append {a b c : Int} (hab : a ≤ b) (hbc : b ≤ c) :
    Int.range a c = Int.range a b ++ Int.range b c := by
  unfold Int.range
  have hsplit : (c - a).toNat = (b - a).toNat + (c - b).toNat := by omega
  rw [hsplit, List.range_add, List.map_append, List.map_map]
  congr 1
  apply List.map_congr_left
  intro n hn
  show a + (((b - a).toNat + n : Nat) : Int) = b + n
  omega

/-- What adds nothing outside a stretch adds no more over a longer one. -/
theorem flatMap_range {α : Type} {found : Int → List α} {radius : Int} (hradius : 8 ≤ radius)
    (h : ∀ d, ¬ (-8 ≤ d ∧ d ≤ 8) → found d = []) :
    (Int.range (-radius) (radius + 1)).flatMap found = (Int.range (-8) (8 + 1)).flatMap found := by
  have hleft : (Int.range (-radius) (-8)).flatMap found = [] := by
    rw [List.flatMap_eq_nil_iff]
    intro d hd
    rw [Int.mem_range_iff] at hd
    exact h d (by omega)
  have hright : (Int.range (8 + 1) (radius + 1)).flatMap found = [] := by
    rw [List.flatMap_eq_nil_iff]
    intro d hd
    rw [Int.mem_range_iff] at hd
    exact h d (by omega)
  rw [range_append (show -radius ≤ -8 by omega) (show (-8 : Int) ≤ radius + 1 by omega),
    range_append (show (-8 : Int) ≤ 8 + 1 by omega) (show (8 + 1 : Int) ≤ radius + 1 by omega),
    List.flatMap_append, List.flatMap_append, hleft, hright, List.nil_append, List.append_nil]

/-- Sources that visit nothing from further away may be left out. -/
theorem flatMap_sources {α : Type} {found : ChunkPos → List α} {radius : Int} (hpos : Inland pos)
    (hradius : 8 ≤ radius) (h : ∀ source, ¬ Near pos source → found source = []) :
    (sources radius pos).flatMap found = (sources CARVER_SOURCE_RADIUS_CHUNKS pos).flatMap found := by
  unfold sources CARVER_SOURCE_RADIUS_CHUNKS
  simp only [List.flatMap_assoc, List.flatMap_map]
  have hrow : ∀ dz, ((Int.range (-radius) (radius + 1)).flatMap fun dx =>
        found ⟨saturate (pos.x + dx), saturate (pos.z + dz)⟩) =
      (Int.range (-8) (8 + 1)).flatMap fun dx => found ⟨saturate (pos.x + dx), saturate (pos.z + dz)⟩ :=
    fun dz => flatMap_range hradius fun dx hdx =>
      h _ fun hnear => hdx (near_of_source hpos hnear).1
  simp only [hrow]
  refine flatMap_range hradius fun dz hdz => ?_
  rw [List.flatMap_eq_nil_iff]
  exact fun dx _ => h _ fun hnear => hdz (near_of_source hpos hnear).2

end caves

/-! ## Continuity -/

/-- Caves and canyons go on across chunk borders: for any draws, and any chunk away from the coordinate
bounds, a cell of the chunk that some system's ellipsoid holds belongs to a source of the
neighbourhood and, in the height of the world, is visited; and a larger neighbourhood leaves the same
blocks. -/
def Continuous (carvers : List CarverConfig) : Prop :=
  ∀ (R : Type) [RandomDoubles R] (featureRandom : Int → String → ChunkPos → Nat → R)
    (context : WorldgenContext) (registry : BlockRegistry) (pos : ChunkPos), Inland pos →
    (∀ carver ∈ carvers, ∀ source, ∀ e ∈ system featureRandom context carver source, ∀ cell,
      InChunk pos cell → e.Holds cell → Near pos source ∧
        (context.minY.val ≤ cell.y → cell.y < context.effectiveMaxY →
          ⟨carver, e, cell⟩ ∈ visits featureRandom context CARVER_SOURCE_RADIUS_CHUNKS carvers pos)) ∧
    ∀ (radius : Int) (chunk : Chunk), CARVER_SOURCE_RADIUS_CHUNKS ≤ radius → chunk.pos = pos →
      (carveChunkWithin featureRandom context registry radius carvers chunk pos).chunk =
        (carveChunk featureRandom context registry carvers chunk pos).chunk

/-- Carvers that start no canyon go on across borders. -/
theorem continuous_of_caves {carvers : List CarverConfig} (hcarvers : ∀ carver ∈ carvers, Bounded carver)
    (h : ∀ carver ∈ carvers, carver.kind = .canyon → carver.probability ≤ 0) : Continuous carvers := by
  intro R _ featureRandom context registry pos hpos
  have hwithin : ∀ carver ∈ carvers, ∀ source, ∀ e ∈ system featureRandom context carver source,
      Within source e := by
    intro carver hmem source e he
    cases hkind : carver.kind with
    | cave => exact system_cave (hcarvers carver hmem) hkind e he
    | canyon =>
      have hroll := (nextF64_range (carverRandom featureRandom context carver source)).1
      exact absurd (h carver hmem hkind) (not_le.mpr (hroll.trans_lt (mem_system.mp he).1))
  refine ⟨?_, ?_⟩
  · intro carver hmem source e he cell hcell hholds
    have hin := hwithin carver hmem source e he
    have hnear : Near pos source := by
      by_contra hfar
      obtain ⟨hx, hz⟩ := ranges_of_holds hpos hin.rx hcell hholds
      cases ranges_far hpos hin hfar <;> omega
    refine ⟨hnear, fun hlow hhigh => ?_⟩
    refine List.mem_flatMap.mpr ⟨carver, hmem, List.mem_flatMap.mpr ⟨source, mem_sources hpos hnear, ?_⟩⟩
    refine List.mem_flatMap.mpr ⟨e, he, List.mem_map.mpr ⟨cell, ?_, rfl⟩⟩
    exact mem_cells_of_holds hpos hin.rx hin.ry hcell hholds hlow hhigh
  · intro radius chunk hradius hchunk
    subst hchunk
    unfold carveChunk
    rw [carveChunkWithin_eq, carveChunkWithin_eq]
    congr 1
    apply List.flatMap_congr
    intro carver hmem
    refine flatMap_sources hpos hradius fun source hfar => ?_
    rw [sourceVisits, List.flatMap_eq_nil_iff]
    intro e he
    rw [ellipsoidVisits, e.cells_nil context (ranges_far hpos (hwithin carver hmem source e he) hfar),
      List.map_nil]

/-! ## Canyons -/

/-- Draws given beforehand, and halves once they are used up; whole numbers come out as zero. -/
instance : RandomDoubles (List (Fin (2 ^ 53))) where
  nextI32Bounded random _ := (random, 0)
  next53
    | [] => ([], 2 ^ 52)
    | bits :: random => (random, bits)
  bounded _ _ h := ⟨le_refl 0, h⟩

section canyons
variable {carver : CarverConfig} {random : List (Fin (2 ^ 53))}

theorem nextF64_nil : nextF64 ([] : List (Fin (2 ^ 53))) = (1 / 2, []) := by
  show ((((2 ^ 52 : Fin (2 ^ 53)) : ℕ) : ℝ) / 2 ^ 53, _) = _
  rw [show ((2 ^ 52 : Fin (2 ^ 53)) : ℕ) = 2 ^ 52 from rfl]
  norm_num

theorem nextF64_cons (k : Fin (2 ^ 53)) : nextF64 (k :: random) = (((k : ℕ) : ℝ) / 2 ^ 53, random) := rfl

/-- Uses up none of the draws given. -/
def Idle {α : Type} (random : List (Fin (2 ^ 53))) (draw : StateM (List (Fin (2 ^ 53))) α) : Prop :=
  (draw random).2 = random

theorem idle_pure {α : Type} (a : α) : Idle random (pure a) := rfl

theorem idle_bind {α β : Type} {draw : StateM (List (Fin (2 ^ 53))) α}
    {next : α → StateM (List (Fin (2 ^ 53))) β} (h : Idle random draw) (hnext : ∀ a, Idle random (next a)) :
    Idle random (draw >>= next) := by
  show (next (draw random).1 (draw random).2).2 = random
  rw [h]
  exact hnext _

theorem idle_f64 : Idle [] nextF64 := rfl

theorem idle_sample (range : FloatRange) : Idle [] range.sample := by
  unfold FloatRange.sample nextF64Between
  split_ifs
  · exact idle_pure _
  · exact idle_bind idle_f64 fun _ => idle_pure _

theorem idle_inclusive (min max : Int) : Idle random (nextI32Inclusive min max) := by
  unfold nextI32Inclusive
  split_ifs
  · exact idle_pure _
  · exact idle_bind rfl fun _ => idle_pure _

theorem idle_height (context : WorldgenContext) (y : HeightDist) : Idle random (y.sample context) := by
  cases y with
  | uniform min max => exact idle_inclusive _ _
  | trapezoid min max plateau =>
    unfold HeightDist.sample sampleTrapezoid
    dsimp only
    split_ifs
    · exact idle_pure _
    · refine idle_bind (idle_inclusive _ _) fun _ => idle_bind (idle_inclusive _ _) fun _ => ?_
      exact idle_bind (idle_inclusive _ _) fun _ => idle_pure _
    · refine idle_bind (idle_inclusive _ _) fun _ => idle_bind (idle_inclusive _ _) fun _ => ?_
      exact idle_bind (idle_pure _) fun _ => idle_pure _

theorem idle_shape (baseRadius : ℝ) (step : Nat) (walker : Walker) :
    Idle [] (shape carver baseRadius step walker) := by
  unfold shape
  refine idle_bind (idle_sample _) fun _ => idle_bind (idle_sample _) fun _ =>
    idle_bind (idle_sample _) fun _ => ?_
  cases carver.kind
  · exact idle_bind (idle_sample _) fun _ => idle_pure _
  · exact idle_bind (idle_sample _) fun _ => idle_pure _

theorem idle_advance (walker : Walker) : Idle [] (advance carver walker) := by
  unfold advance
  cases carver.kind
  · exact idle_bind idle_f64 fun _ => idle_bind idle_f64 fun _ => idle_pure _
  · exact idle_bind idle_f64 fun _ => idle_bind (idle_sample _) fun _ => idle_pure _

/-- A step taken with halves for draws. -/
noncomputable def stride (carver : CarverConfig) (walker : Walker) : Walker :=
  (advance carver walker ([] : List (Fin (2 ^ 53)))).1

/-- The ellipsoid of a step taken with halves for draws. -/
noncomputable def bubble (carver : CarverConfig) (baseRadius : ℝ) (step : Nat) (walker : Walker) : Ellipsoid :=
  (shape carver baseRadius step walker ([] : List (Fin (2 ^ 53)))).1

/-- A walk with halves for draws carves around every place it comes to. -/
theorem bubble_mem (baseRadius : ℝ) {n left : Nat} (h : n < left) (step : Nat) (walker : Walker) :
    bubble carver baseRadius (step + n) ((stride carver)^[n] walker) ∈
      ellipsoids carver baseRadius left step walker ([] : List (Fin (2 ^ 53))) := by
  induction n generalizing left step walker with
  | zero =>
    obtain ⟨left, rfl⟩ : ∃ l, left = l + 1 := ⟨left - 1, by omega⟩
    rw [ellipsoids_succ]
    exact List.mem_cons_self
  | succ n ih =>
    obtain ⟨left, rfl⟩ : ∃ l, left = l + 1 := ⟨left - 1, by omega⟩
    rw [ellipsoids_succ, idle_shape, idle_advance, Function.iterate_succ_apply,
      show step + (n + 1) = step + 1 + n by omega]
    exact List.mem_cons_of_mem _ (ih (by omega) (step + 1) (stride carver walker))

/-- How a canyon turns up or down with a half for a draw. -/
noncomputable def tilt (carver : CarverConfig) (pitch : ℝ) : ℝ :=
  max (-0.35) (min (pitch + (carver.verticalRotation.sample ([] : List (Fin (2 ^ 53)))).1) 0.35)

theorem stride_canyon (hkind : carver.kind = .canyon) (walker : Walker) :
    stride carver walker = ⟨walker.x + Real.cos walker.yaw * (STEP_LENGTH * max |Real.cos (tilt carver walker.pitch)| 0.15),
      walker.y + Real.sin (tilt carver walker.pitch) * STEP_LENGTH,
      walker.z + Real.sin walker.yaw * (STEP_LENGTH * max |Real.cos (tilt carver walker.pitch)| 0.15),
      walker.yaw, tilt carver walker.pitch⟩ := by
  have hyaw : walker.yaw + ((nextF64 ([] : List (Fin (2 ^ 53)))).1 - 0.5) * 0.35 = walker.yaw := by
    rw [nextF64_nil]
    norm_num
  unfold stride advance
  rw [hkind]
  exact congrArg (fun yaw => (⟨walker.x + Real.cos yaw * _, _, walker.z + Real.sin yaw * _, yaw, _⟩ : Walker)) hyaw

theorem sample_half {range : FloatRange} (h : range.min < range.max) :
    (range.sample ([] : List (Fin (2 ^ 53)))).1 = (range.min + range.max) / 2 := by
  unfold FloatRange.sample nextF64Between
  rw [if_neg (not_le.mpr h)]
  show range.min + (nextF64 ([] : List (Fin (2 ^ 53)))).1 * (range.max - range.min) = _
  rw [nextF64_nil]
  ring

theorem bubble_canyon (hkind : carver.kind = .canyon) (baseRadius : ℝ) (step : Nat) (walker : Walker) :
    ∃ ry, 1 ≤ ry ∧ bubble carver baseRadius step walker = ⟨walker.x, walker.y, walker.z,
      max (baseRadius * (carver.horizontalRadiusMultiplier.sample ([] : List (Fin (2 ^ 53)))).1 *
        (1 - step / CANYON_MAX_STEPS * 0.55)) 0.35, ry, none⟩ := by
  unfold bubble shape
  rw [hkind]
  exact ⟨_, le_max_right _ _, rfl⟩

theorem stride_length (pitch : ℝ) : 1.87 ≤ STEP_LENGTH * max |Real.cos (tilt carver pitch)| 0.15 ∧
    STEP_LENGTH * max |Real.cos (tilt carver pitch)| 0.15 ≤ 2 := by
  refine ⟨?_, (stride_le _).2⟩
  have hlow : -0.35 ≤ tilt carver pitch := le_max_left _ _
  have hhigh : tilt carver pitch ≤ 0.35 := max_le (by norm_num) (min_le_right _ _)
  have hcos := Real.one_sub_sq_div_two_le_cos (x := tilt carver pitch)
  have habs := le_max_of_le_left (b := |Real.cos (tilt carver pitch)|) (c := 0.15) (le_abs_self _)
  unfold STEP_LENGTH
  nlinarith

/-- A canyon whose draws are halves goes straight on, however it tilts. -/
theorem straight_on (hkind : carver.kind = .canyon) (n : Nat) (pitch : ℝ) :
    ∃ d : ℝ, 1.87 * n ≤ d ∧ d ≤ 2 * n ∧ ∀ walker : Walker, walker.pitch = pitch →
      ((stride carver)^[n] walker).x = walker.x + Real.cos walker.yaw * d ∧
        ((stride carver)^[n] walker).z = walker.z + Real.sin walker.yaw * d := by
  induction n generalizing pitch with
  | zero => exact ⟨0, by norm_num, by norm_num, fun walker _ => ⟨by simp, by simp⟩⟩
  | succ n ih =>
    obtain ⟨d, hlow, hhigh, hd⟩ := ih (tilt carver pitch)
    obtain ⟨hlength, hlength'⟩ := @stride_length carver pitch
    refine ⟨STEP_LENGTH * max |Real.cos (tilt carver pitch)| 0.15 + d, by push_cast; linarith,
      by push_cast; linarith, fun walker hpitch => ?_⟩
    obtain ⟨hx, hz⟩ := hd (stride carver walker) (by rw [stride_canyon hkind, hpitch])
    rw [Function.iterate_succ_apply, hx, hz, stride_canyon hkind, hpitch]
    exact ⟨by ring, by ring⟩

/-- A cell near enough to the middle of an ellipsoid lies in it. -/
theorem holds_of_near {a b c rx ry : ℝ} (hac : a ^ 2 + c ^ 2 ≤ 3 / 4 * rx ^ 2) (hb : b ^ 2 ≤ 1 / 4)
    (hrx : 0 < rx) (hry : 1 ≤ ry) : a / rx * (a / rx) + b / ry * (b / ry) + c / rx * (c / rx) ≤ 1 := by
  have hwide : (a ^ 2 + c ^ 2) / rx ^ 2 ≤ 3 / 4 := (div_le_iff₀ (by positivity)).mpr hac
  have htall : b ^ 2 / ry ^ 2 ≤ 1 / 4 := by
    rw [div_le_iff₀ (by positivity)]
    nlinarith
  calc a / rx * (a / rx) + b / ry * (b / ry) + c / rx * (c / rx)
      = (a ^ 2 + c ^ 2) / rx ^ 2 + b ^ 2 / ry ^ 2 := by ring
    _ ≤ 1 := by linarith

theorem floor_near (y : ℝ) : ((⌊y⌋ : ℝ) + 1 / 2 - y) ^ 2 ≤ 1 / 4 := by
  have hfloor := Int.floor_le y
  have hfloor' := Int.lt_floor_add_one y
  nlinarith

/-- A bubble of a canyon holds a cell whose column passes near its middle. -/
theorem bubble_holds (hkind : carver.kind = .canyon) (baseRadius : ℝ) (step : Nat) (walker : Walker)
    {x z : Int} (h : ((x : ℝ) + 1 / 2 - walker.x) ^ 2 + ((z : ℝ) + 1 / 2 - walker.z) ^ 2 ≤
      3 / 4 * (max (baseRadius * (carver.horizontalRadiusMultiplier.sample ([] : List (Fin (2 ^ 53)))).1 *
        (1 - step / CANYON_MAX_STEPS * 0.55)) 0.35) ^ 2) :
    (bubble carver baseRadius step walker).Holds ⟨x, ⌊walker.y⌋, z⟩ := by
  obtain ⟨ry, hry, heq⟩ := bubble_canyon hkind baseRadius step walker
  rw [heq]
  unfold Ellipsoid.Holds
  dsimp only
  generalize hrx : max (baseRadius * _ * _) (0.35 : ℝ) = rx at h ⊢
  have hwide : 0.35 ≤ rx := hrx ▸ le_max_right _ _
  rw [max_eq_left (show 0.1 ≤ rx by linarith), show (0.5 : ℝ) = 1 / 2 by norm_num]
  exact holds_of_near h (floor_near walker.y) (by linarith) (le_max_of_le_left hry)

/-- The draws of a canyon that starts at the corner of its source and goes straight on. -/
def aimed (k : Fin (2 ^ 53)) : Int → String → ChunkPos → Nat → List (Fin (2 ^ 53)) := fun _ _ _ _ => [0, k]

/-- Where a canyon from the corner of the first chunk begins. -/
theorem start_corner (hkind : carver.kind = .canyon) (context : WorldgenContext) (k : Fin (2 ^ 53)) :
    start context carver ⟨0, 0⟩ [k] =
      ((⟨0, (carver.y.sample context [k]).1, 0, Aim.angle (2 ^ 53) k, 0⟩, 2), []) := by
  have heq := start_eq context carver ⟨0, 0⟩ [k]
  have hdraws : (nextBounded 16 [k]).2 = [k] := rfl
  have hheight : (carver.y.sample context [k]).2 = [k] := idle_height context carver.y
  have hzero : ((saturate (0 * 16) : Int) : ℝ) + 8 + ((nextBounded 16 [k]).1 : Int) - 8 = 0 := by
    rw [show saturate (0 * 16) = 0 from rfl, show (nextBounded 16 [k]).1 = 0 from rfl]
    norm_num
  have hangle : ((k : ℕ) : ℝ) / 2 ^ 53 * (2 * Real.pi) = Aim.angle (2 ^ 53) k := by
    rw [Aim.angle]
    norm_num
  have hradius : (1.0 : ℝ) + 1 / 2 * 2.0 = 2 := by norm_num
  dsimp only at heq
  rw [hdraws, hdraws, hheight, nextF64_cons, nextF64_nil, hangle, hzero, hkind] at heq
  dsimp only at heq
  rwa [hradius] at heq

theorem coords_of_near {x z : Int} {a b d : ℝ} (ha : a ≤ d) (hb : |b| ≤ d) (hd : d ≤ 199)
    (hnear : ((x : ℝ) + 1 / 2 - a) ^ 2 + ((z : ℝ) + 1 / 2 - b) ^ 2 ≤ 1 / 16) :
    x ≤ 200 ∧ -200 ≤ z ∧ z ≤ 200 := by
  have hbound : (1 / 16 : ℝ) = (1 / 4) ^ 2 := by norm_num
  obtain ⟨-, hx⟩ := abs_le_of_sq_le_sq' ((le_add_of_nonneg_right (sq_nonneg _)).trans
    (hnear.trans_eq hbound)) (by norm_num)
  obtain ⟨hz, hz'⟩ := abs_le_of_sq_le_sq' ((le_add_of_nonneg_left (sq_nonneg _)).trans
    (hnear.trans_eq hbound)) (by norm_num)
  obtain ⟨hb, hb'⟩ := abs_le.mp hb
  have hxr : (x : ℝ) ≤ 200 := by linarith
  have hzr : (-200 : ℝ) ≤ z := by linarith
  have hzr' : (z : ℝ) ≤ 200 := by linarith
  exact ⟨by exact_mod_cast hxr, by exact_mod_cast hzr, by exact_mod_cast hzr'⟩

/-- Some draws take a canyon more than eight chunks away. -/
theorem canyon_leaves (hkind : carver.kind = .canyon) (hprobability : 0 < carver.probability)
    (context : WorldgenContext) : ∃ k, ∃ e ∈ system (aimed k) context carver ⟨0, 0⟩, ∃ cell,
      e.Holds cell ∧ (144 ≤ cell.x ∧ cell.x ≤ 200) ∧ -200 ≤ cell.z ∧ cell.z ≤ 200 := by
  obtain ⟨d, hlow, hhigh, hd⟩ := straight_on hkind 95 0
  norm_num at hlow hhigh
  obtain ⟨k, hk, x, z, hx, hnear⟩ := Aim.exists_angle_to_cell (n := 2 ^ 53) (d := d) (by linarith)
    (by push_cast; linarith)
  have hstart := start_corner hkind context ⟨k, hk⟩
  generalize ((carver.y.sample context [(⟨k, hk⟩ : Fin (2 ^ 53))]).1 : ℝ) = y at hstart
  obtain ⟨hwx, hwz⟩ := hd ⟨0, y, 0, Aim.angle (2 ^ 53) k, 0⟩ rfl
  have hroll : nextF64 (carverRandom (aimed ⟨k, hk⟩) context carver ⟨0, 0⟩) = (0, [⟨k, hk⟩]) := by
    rw [carverRandom, aimed, nextF64_cons]
    norm_num
  have hd0 : 0 ≤ d := by linarith
  obtain ⟨hxhigh, hz⟩ := coords_of_near (mul_le_of_le_one_left hd0 (Real.cos_le_one _))
    (show |Real.sin (Aim.angle (2 ^ 53) k) * d| ≤ d by
      rw [abs_mul, abs_of_nonneg hd0]
      exact mul_le_of_le_one_left hd0 (Real.abs_sin_le_one _)) (hhigh.trans (by norm_num)) hnear
  have hxlow : (144 : ℝ) ≤ x := by linarith
  refine ⟨⟨k, hk⟩, bubble carver 2 (0 + 95) ((stride carver)^[95] ⟨0, y, 0, Aim.angle (2 ^ 53) k, 0⟩),
    mem_system.mpr ⟨?_, ?_⟩, ⟨x, _, z⟩, bubble_holds hkind _ _ _ ?_, ?_, ?_⟩
  · rw [hroll]
    exact hprobability
  · rw [hroll, walk_eq, hstart, hkind]
    exact bubble_mem 2 (by decide) 0 _
  · rw [hwx, hwz, zero_add, zero_add]
    refine hnear.trans ?_
    have hwide : (0.35 : ℝ) ≤ max (2 * (carver.horizontalRadiusMultiplier.sample
      ([] : List (Fin (2 ^ 53)))).1 * (1 - (0 + 95 : ℕ) / CANYON_MAX_STEPS * 0.55)) 0.35 := le_max_right _ _
    nlinarith
  · exact ⟨by exact_mod_cast hxlow, hxhigh⟩
  · exact hz

end canyons

/-- The vanilla overworld. -/
def overworld : WorldgenContext := ⟨0, ⟨-64, by decide⟩, ⟨384, by decide⟩, ⟨63, by decide⟩⟩

/-- The neighbourhood of eight chunks is enough exactly when no canyon can start: a cave walks 48 steps
and stays within it, a canyon's 96 steps can lead out of it. -/
theorem continuous_iff (carvers : List CarverConfig) (hcarvers : ∀ carver ∈ carvers, Bounded carver) :
    Continuous carvers ↔ ∀ carver ∈ carvers, carver.kind = .canyon → carver.probability ≤ 0 := by
  refine ⟨fun h carver hmem hkind => ?_, continuous_of_caves hcarvers⟩
  by_contra hprobability
  obtain ⟨k, e, he, cell, hholds, hx, hz⟩ := canyon_leaves hkind (not_le.mp hprobability) overworld
  have hinland : Inland ⟨cell.x / 16, cell.z / 16⟩ := by
    unfold Inland
    dsimp only
    omega
  obtain ⟨hcells, -⟩ := h (List (Fin (2 ^ 53))) (aimed k) overworld ⟨fun _ => none, [], 0, []⟩ _ hinland
  obtain ⟨hnear, -⟩ := (hcells carver hmem ⟨0, 0⟩ e he cell ⟨rfl, rfl⟩ hholds).1
  dsimp only at hnear
  omega

/-- The pack's cave. -/
noncomputable def packCave : CarverConfig where
  name := "cave"
  kind := .cave
  probability := 0.15
  y := .uniform (.aboveBottom 8) (.absolute 180)
  yScale := ⟨0.1, 0.9⟩
  horizontalRadiusMultiplier := ⟨0.7, 1.4⟩
  verticalRadiusMultiplier := ⟨0.8, 1.3⟩
  floorLevel := ⟨-1, -0.4⟩
  replaceable := [1]
  thickness := ⟨1, 3⟩
  verticalRotation := ⟨0, 0⟩
  lavaLevel := 8

theorem packCave_bounded : ∀ carver ∈ [packCave], Bounded carver := by
  intro carver hmem
  rw [List.mem_singleton.mp hmem]
  constructor <;> norm_num [packCave]

theorem cave_continuous : Continuous [packCave] :=
  (continuous_iff [packCave] packCave_bounded).mpr fun carver hmem hkind => by
    rw [List.mem_singleton.mp hmem] at hkind
    exact nomatch hkind

/-- The pack's canyon. -/
noncomputable def packCanyon : CarverConfig where
  name := "canyon"
  kind := .canyon
  probability := 0.01
  y := .uniform (.absolute 10) (.absolute 67)
  yScale := ⟨3, 3⟩
  horizontalRadiusMultiplier := ⟨0.75, 1⟩
  verticalRadiusMultiplier := ⟨1, 1⟩
  floorLevel := ⟨-1, -1⟩
  replaceable := [1]
  thickness := ⟨0, 6⟩
  verticalRotation := ⟨-0.125, 0.125⟩
  lavaLevel := 8

/-- The draws of a canyon that runs east from the first chunk, and of no other. -/
def eastward : Int → String → ChunkPos → Nat → List (Fin (2 ^ 53)) := fun _ _ source _ =>
  if source = ⟨0, 0⟩ then [0, 0] else []

theorem eastward_at (n : Nat) (x : ℝ) :
    (stride packCanyon)^[n] ⟨x, 10, 0, 0, 0⟩ = ⟨x + 2 * n, 10, 0, 0, 0⟩ := by
  have hlevel : tilt packCanyon 0 = 0 := by
    unfold tilt
    rw [sample_half (by norm_num [packCanyon])]
    norm_num [packCanyon]
  induction n generalizing x with
  | zero => simp
  | succ n ih =>
    have hstride : stride packCanyon ⟨x, 10, 0, 0, 0⟩ = ⟨x + 2, 10, 0, 0, 0⟩ := by
      rw [stride_canyon rfl, hlevel, Real.cos_zero, Real.sin_zero, STEP_LENGTH]
      norm_num
    rw [Function.iterate_succ_apply, hstride, ih]
    push_cast
    ring_nf

theorem eastward_holds : (bubble packCanyon 2 76 ⟨152, 10, 0, 0, 0⟩).Holds ⟨152, 10, 0⟩ := by
  have hwide : (0.9 : ℝ) ≤ 2 * (packCanyon.horizontalRadiusMultiplier.sample ([] : List (Fin (2 ^ 53)))).1 *
      (1 - (76 : ℕ) / CANYON_MAX_STEPS * 0.55) := by
    rw [sample_half (by norm_num [packCanyon])]
    norm_num [packCanyon, CANYON_MAX_STEPS]
  have hwide' := le_max_of_le_left (c := 0.35) hwide
  have hholds := bubble_holds (show packCanyon.kind = .canyon from rfl) 2 76 ⟨152, 10, 0, 0, 0⟩ (x := 152) (z := 0) (by
    push_cast
    nlinarith)
  rwa [show ⌊(10 : ℝ)⌋ = 10 from Int.floor_ofNat 10] at hholds

theorem eastward_mem : bubble packCanyon 2 76 ⟨152, 10, 0, 0, 0⟩ ∈
    system eastward overworld packCanyon ⟨0, 0⟩ := by
  have hroll : nextF64 (carverRandom eastward overworld packCanyon ⟨0, 0⟩) = (0, [0]) := by
    rw [carverRandom, eastward, if_pos rfl, nextF64_cons]
    norm_num
  have hstart := start_corner (show packCanyon.kind = .canyon from rfl) overworld 0
  have hheight : (packCanyon.y.sample overworld [(0 : Fin (2 ^ 53))]).1 = 10 := rfl
  have hangle : Aim.angle (2 ^ 53) (0 : Fin (2 ^ 53)) = 0 := by simp [Aim.angle]
  have hmem := @bubble_mem packCanyon 2 76 96 (by decide) 0 ⟨0, 10, 0, 0, 0⟩
  rw [eastward_at, show (0 : ℝ) + 2 * (76 : ℕ) = 152 by norm_num] at hmem
  rw [mem_system, hroll, walk_eq, hstart, hheight, hangle]
  exact ⟨by norm_num [packCanyon], hmem⟩

/-- The canyon of the first chunk reaches the tenth, which does not walk it. -/
theorem ravine_cut_off : ¬ Continuous [packCanyon] ∧
    (∃ e ∈ system eastward overworld packCanyon ⟨0, 0⟩, e.Holds ⟨152, 10, 0⟩) ∧
    visits eastward overworld CARVER_SOURCE_RADIUS_CHUNKS [packCanyon] ⟨9, 0⟩ = [] := by
  have hvisits : visits eastward overworld CARVER_SOURCE_RADIUS_CHUNKS [packCanyon] ⟨9, 0⟩ = [] := by
    unfold visits
    rw [List.flatMap_singleton, List.flatMap_eq_nil_iff]
    intro source hsource
    have hne : source ≠ ⟨0, 0⟩ := by
      intro heq
      subst heq
      revert hsource
      decide
    have hsystem : system eastward overworld packCanyon source = [] := by
      rw [List.eq_nil_iff_forall_not_mem]
      intro e he
      have hroll := (mem_system.mp he).1
      rw [carverRandom, eastward, if_neg hne, nextF64_nil] at hroll
      norm_num [packCanyon] at hroll
    rw [sourceVisits, hsystem, List.flatMap_nil]
  refine ⟨fun h => ?_, ⟨_, eastward_mem, eastward_holds⟩, hvisits⟩
  obtain ⟨hcells, -⟩ := h (List (Fin (2 ^ 53))) eastward overworld ⟨fun _ => none, [], 0, []⟩ ⟨9, 0⟩
    (show Inland ⟨9, 0⟩ by unfold Inland; decide)
  obtain ⟨-, hvisited⟩ := hcells packCanyon List.mem_cons_self ⟨0, 0⟩ _ eastward_mem ⟨152, 10, 0⟩ ⟨rfl, rfl⟩
    eastward_holds
  have hmem := hvisited (by decide) (by decide)
  rw [hvisits] at hmem
  exact nomatch hmem

end Apoptosis.L2.Carver
