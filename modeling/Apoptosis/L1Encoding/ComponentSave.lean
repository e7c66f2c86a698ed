import Apoptosis.L1Encoding.ComponentNbt
import Apoptosis.L1Encoding.InventoryPackets
/-!
# Component patches survive a save (`entity/src/components.rs`)
-/
namespace Apoptosis.L1.Components
open Apoptosis.Core.Codec Apoptosis.Core.Framing Apoptosis.L1.Nbt

/-! ## The two halves of a patch -/

namespace DataComponent

/-- Known by its wire id alone. -/
def wireOnly : DataComponent → Bool
  | .unknown _ _ _ none => true
  | _ => false

/-- An unmodelled component with an NBT value. -/
def named : DataComponent → Bool
  | .unknown _ _ _ (some _) => true
  | _ => false

/-- A component without its wire half. -/
def blank : DataComponent → DataComponent
  | .unknown key _ _ nbt => .unknown key 0 [] nbt
  | d => d

end DataComponent

/-- What `scan` finds of a saved patch: its components without their wire halves. -/
def heads : List DataComponent → List DataComponent
  | [] => []
  | d :: ds => if d.wireOnly then heads ds else d.blank :: heads ds

/-- The wire halves, in order. -/
def halves : List DataComponent → List (BitVec 32 × Bytes)
  | [] => []
  | .unknown _ typeId wire _ :: ds => if typeId ≠ 0 then (typeId, wire) :: halves ds else halves ds
  | _ :: ds => halves ds

theorem scan_wireKey (typeId : BitVec 32) (wire : Bytes) (rest : List (String × NbtTag)) :
    scan ((wireKey typeId, .byteArray wire) :: rest) = (do
      let (out, wires) ← scan rest
      return (out, (typeId, wire) :: wires)) := by
  obtain ⟨idText, hstrip, hread⟩ := readWire_wireKey typeId wire
  rw [scan]
  simp only [hstrip, hread]
  rfl

theorem scan_component {key : String} {value : NbtTag} {d : DataComponent}
    (hstrip : stripPrefix "_wire/" key = none) (hread : readComponent key value = .ok d)
    (rest : List (String × NbtTag)) :
    scan ((key, value) :: rest) = (do
      let (out, wires) ← scan rest
      return (d :: out, wires)) := by
  rw [scan]
  simp only [hstrip, hread]
  rfl

theorem stripPrefix_name {d : DataComponent} (h : d.modelled) :
    stripPrefix "_wire/" d.name = none := by
  cases d with
  | unknown => cases h
  | _ => simp only [DataComponent.name]; decide

theorem scan_entriesOf : ∀ {c : List DataComponent}, (∀ d ∈ c, Savable d) →
    scan (c.flatMap entriesOf) = .ok (heads c, halves c)
  | [], _ => rfl
  | d :: ds, h => by
    have hd := h d List.mem_cons_self
    have ih := scan_entriesOf fun e he => h e (List.mem_cons_of_mem _ he)
    rw [List.flatMap_cons]
    by_cases hm : d.modelled
    · have hone : entriesOf d = [(d.name, valueOf d)] := by cases d <;> first | rfl | cases hm
      have hread : readComponent d.name (valueOf d) = .ok d := by
        apply readComponent_valueOf
        · intro k t w n hunknown; rw [hunknown] at hm; cases hm
        · cases d <;> first | exact hd | cases hm
      have hheads : heads (d :: ds) = d :: heads ds := by cases d <;> first | rfl | cases hm
      have hhalves : halves (d :: ds) = halves ds := by cases d <;> first | rfl | cases hm
      rw [hone, List.singleton_append, scan_component (stripPrefix_name hm) hread, ih, hheads,
        hhalves]
      rfl
    · obtain ⟨key, typeId, wire, nbt, rfl⟩ : ∃ k t w n, d = .unknown k t w n := by
        cases d <;> first | exact ⟨_, _, _, _, rfl⟩ | exact absurd rfl hm
      have htail : scan ((if typeId ≠ 0 then [(wireKey typeId, .byteArray wire)] else []) ++
          ds.flatMap entriesOf) = .ok (heads ds, halves (.unknown key typeId wire nbt :: ds)) := by
        by_cases ht : typeId ≠ 0
        · rw [if_pos ht, List.singleton_append, scan_wireKey, ih, halves, if_pos ht]
          rfl
        · rw [if_neg ht, List.nil_append, ih, halves, if_neg ht]
      cases nbt with
      | none => exact htail
      | some value =>
        have hkept : KeptKey key value := hd
        rw [entriesOf, List.append_assoc, List.singleton_append,
          scan_component hkept.1 (readComponent_kept hkept), htail]
        rfl

/-! ## Joining one wire half -/

/-- The component at `i` is an unmodelled one of the wire id `typeId`. -/
def HasType (out : List DataComponent) (i : Nat) (typeId : BitVec 32) : Prop :=
  ∃ d, out[i]? = some d ∧ d.isUnknown typeId

theorem hasType_of_findIdx? {out : List DataComponent} {p : DataComponent → Bool} {i : Nat}
    {typeId : BitVec 32} (h : out.findIdx? p = some i) (hp : ∀ d, p d → d.isUnknown typeId) :
    HasType out i typeId := by
  obtain ⟨hlt, hpi, -⟩ := List.findIdx?_eq_some_iff_getElem.mp h
  exact ⟨out[i], List.getElem?_eq_getElem hlt, hp _ hpi⟩

theorem isUnknown_of_isHashed {typeId : BitVec 32} (d : DataComponent) (h : d.isHashed typeId) :
    d.isUnknown 0 := by
  cases d <;> simp_all [DataComponent.isHashed, DataComponent.isUnknown]

theorem not_hasType_of_findIdx? {out : List DataComponent} {typeId : BitVec 32}
    (h : out.findIdx? (·.isUnknown typeId) = none) (i : Nat) : ¬HasType out i typeId := by
  rintro ⟨d, hd, htype⟩
  have hmem : d ∈ out := List.mem_of_getElem? hd
  rw [List.findIdx?_eq_none_iff] at h
  rw [h d hmem] at htype
  cases htype

/-- A wire half goes to a component of its id, or to one without id when there is none. -/
theorem target_some {out : List DataComponent} {typeId : BitVec 32} {i : Nat}
    (h : target out typeId = some i) :
    HasType out i typeId ∨ (HasType out i 0 ∧ ∀ j, ¬HasType out j typeId) := by
  rw [target] at h
  cases h1 : out.findIdx? (·.isUnknown typeId) with
  | some j =>
    rw [h1] at h; cases h
    exact .inl (hasType_of_findIdx? h1 fun _ hd => hd)
  | none =>
    refine .inr ⟨?_, not_hasType_of_findIdx? h1⟩
    rw [h1] at h
    cases h2 : out.findIdx? (·.isHashed typeId) with
    | some j =>
      rw [h2] at h; cases h
      exact hasType_of_findIdx? h2 isUnknown_of_isHashed
    | none =>
      rw [h2] at h
      change (if _ then _ else none) = some i at h
      split at h
      · exact hasType_of_findIdx? h fun _ hd => hd
      · cases h

theorem target_none {out : List DataComponent} {typeId : BitVec 32}
    (h : target out typeId = none) (i : Nat) : ¬HasType out i typeId := by
  apply not_hasType_of_findIdx?
  rw [target] at h
  cases h1 : out.findIdx? (·.isUnknown typeId) with
  | some j => rw [h1] at h; cases h
  | none => rfl

theorem isUnknown_setWire {d : DataComponent} {s t : BitVec 32} (hd : d.isUnknown s)
    (wire : Bytes) (u : BitVec 32) : (d.setWire t wire).isUnknown u ↔ u = t := by
  cases d with
  | unknown => exact beq_iff_eq.trans eq_comm
  | _ => cases hd

theorem isUnknown_unique {d : DataComponent} {s t : BitVec 32} (hs : d.isUnknown s)
    (ht : d.isUnknown t) : s = t := by
  cases d <;> simp_all [DataComponent.isUnknown]

/-- Joining a half of a nonzero id gives one place that id and changes no other id. -/
theorem attach_spec (out : List DataComponent) (typeId : BitVec 32) (wire : Bytes) :
    ∃ j, (target out typeId = some j ∨ (target out typeId = none ∧ j = out.length)) ∧
      (HasType out j typeId ∨ ∀ i, ¬HasType out i typeId) ∧
      ∀ i s, s ≠ 0 → (HasType (attach out (typeId, wire)) i s ↔
        HasType out i s ∨ (i = j ∧ s = typeId)) := by
  cases ht : target out typeId with
  | some j =>
    have hspec := target_some ht
    refine ⟨j, .inl rfl, hspec.imp_right fun h => h.2, fun i s hs => ?_⟩
    have hattach : attach out (typeId, wire) = out.modify j (·.setWire typeId wire) := by
      simp only [attach, ht]
    obtain ⟨d, hd, r, hr, hr'⟩ : ∃ d, out[j]? = some d ∧ ∃ r, d.isUnknown r ∧
        (r = typeId ∨ r = 0) := by
      rcases hspec with ⟨d, hd, htype⟩ | ⟨⟨d, hd, htype⟩, -⟩
      · exact ⟨d, hd, typeId, htype, .inl rfl⟩
      · exact ⟨d, hd, 0, htype, .inr rfl⟩
    rw [hattach, HasType, List.getElem?_modify]
    by_cases hij : j = i
    · subst hij
      simp only [if_true, hd, Option.map_eq_map, Option.map_some, Option.some.injEq,
        exists_eq_left', isUnknown_setWire hr, HasType, true_and]
      constructor
      · exact .inr
      · rintro (hsd | rfl)
        · obtain rfl := isUnknown_unique hr hsd
          exact hr'.resolve_right hs
        · rfl
    · simp only [if_neg hij, Option.map_eq_map, Option.map_id', HasType, Ne.symm hij,
        false_and, or_false]
  | none =>
    have hnone := target_none ht
    refine ⟨out.length, .inr ⟨rfl, rfl⟩, .inr hnone, fun i s hs => ?_⟩
    have hattach : attach out (typeId, wire) = out ++ [unknownFromWire typeId wire] := by
      simp only [attach, ht]
    rw [hattach, HasType, List.getElem?_append]
    by_cases hi : i < out.length
    · rw [if_pos hi]
      simp only [HasType, show i ≠ out.length by omega, false_and, or_false]
    · rw [if_neg hi]
      have hout : ¬HasType out i s := by
        rintro ⟨d, hd, -⟩
        have := (List.getElem?_eq_some_iff.mp hd).1
        exact hi this
      simp only [hout, false_or]
      constructor
      · rintro ⟨d, hd, hs'⟩
        have hlen := (List.getElem?_eq_some_iff.mp hd).1
        have hi0 : i = out.length := by simp at hlen; omega
        subst hi0
        simp only [Nat.sub_self, List.getElem?_cons_zero, Option.some.injEq] at hd
        subst hd
        exact ⟨rfl, (beq_iff_eq.mp hs').symm⟩
      · rintro ⟨rfl, rfl⟩
        exact ⟨unknownFromWire s wire, by simp, beq_self_eq_true s⟩

/-! ## What a loaded patch looks like -/

/-- No two unmodelled components share a nonzero wire id. -/
def Distinct (out : List DataComponent) : Prop :=
  ∀ i j t, t ≠ 0 → HasType out i t → HasType out j t → i = j

/-- The wire id 0 stands for a component known by its NBT alone, the key `#<id>` for one known
by its wire id alone. -/
def Marked : DataComponent → Prop
  | .unknown key typeId _ none => typeId ≠ 0 ∧ key = hashKey typeId
  | .unknown _ typeId wire (some _) => typeId = 0 → wire = []
  | _ => True

/-- Components without NBT come last. -/
def WireLast (out : List DataComponent) : Prop := out.Pairwise fun d e => d.wireOnly → e.wireOnly

theorem target_isUnknown {out : List DataComponent} {typeId : BitVec 32} {i : Nat}
    (h : target out typeId = some i) :
    ∃ d, out[i]? = some d ∧ (d.isUnknown typeId ∨ d.isUnknown 0) := by
  rcases target_some h with ⟨d, hd, htype⟩ | ⟨⟨d, hd, htype⟩, -⟩
  · exact ⟨d, hd, .inl htype⟩
  · exact ⟨d, hd, .inr htype⟩

theorem attach_forall {Q : DataComponent → Prop} {out : List DataComponent} {typeId : BitVec 32}
    {wire : Bytes}
    (hset : ∀ d, Q d → d.isUnknown typeId ∨ d.isUnknown 0 → Q (d.setWire typeId wire))
    (hnew : Q (unknownFromWire typeId wire)) (h : ∀ d ∈ out, Q d) :
    ∀ d ∈ attach out (typeId, wire), Q d := by
  intro d hd
  rw [attach] at hd
  split at hd
  · next i htarget =>
    obtain ⟨j, hlt, rfl⟩ := List.getElem_of_mem hd
    rw [List.length_modify] at hlt
    rw [List.getElem_modify]
    split
    · next hij =>
      subst hij
      obtain ⟨e, he, htype⟩ := target_isUnknown htarget
      obtain ⟨_, rfl⟩ := List.getElem?_eq_some_iff.mp he
      exact hset _ (h _ (List.getElem_mem _)) htype
    · exact h _ (List.getElem_mem _)
  · rcases List.mem_append.mp hd with hd | hd
    · exact h d hd
    · obtain rfl := List.mem_singleton.mp hd
      exact hnew

theorem wireOnly_setWire (d : DataComponent) (typeId : BitVec 32) (wire : Bytes) :
    (d.setWire typeId wire).wireOnly = d.wireOnly := by
  rcases d with _ | _ | _ | _ | _ | _ | _ | _ | _ | ⟨_, _, _, _ | _⟩ <;> rfl

theorem attach_savable {out : List DataComponent} (half : BitVec 32 × Bytes)
    (h : ∀ d ∈ out, Savable d) : ∀ d ∈ attach out half, Savable d := by
  refine attach_forall (fun d hd _ => ?_) trivial h
  rcases d with _ | _ | _ | _ | _ | _ | _ | _ | _ | ⟨_, _, _, _ | _⟩ <;> exact hd

theorem attach_marked {out : List DataComponent} {half : BitVec 32 × Bytes}
    (ht : half.1 ≠ 0) (h : ∀ d ∈ out, Marked d) : ∀ d ∈ attach out half, Marked d := by
  refine attach_forall (fun d hd htype => ?_) ⟨ht, rfl⟩ h
  rcases d with _ | _ | _ | _ | _ | _ | _ | _ | _ | ⟨key, t, w, nbt⟩
  case unknown =>
    cases nbt with
    | some value => exact fun h0 => absurd h0 ht
    | none =>
      obtain ⟨h0, hkey⟩ := hd
      rcases htype with htype | htype
      · obtain rfl : t = half.1 := beq_iff_eq.mp htype
        exact ⟨h0, hkey⟩
      · exact absurd (beq_iff_eq.mp htype) h0
  all_goals exact hd

theorem attach_wireLast {out : List DataComponent} (half : BitVec 32 × Bytes)
    (h : WireLast out) : WireLast (attach out half) := by
  rw [attach]
  split
  · next i _ =>
    have hmap : (out.modify i (·.setWire half.1 half.2)).map DataComponent.wireOnly =
        out.map DataComponent.wireOnly := by
      apply List.ext_getElem (by simp)
      intro j h1 h2
      simp only [List.getElem_map, List.getElem_modify]
      split
      · exact wireOnly_setWire _ _ _
      · rfl
    have h' : (out.map DataComponent.wireOnly).Pairwise fun a b => a = true → b = true :=
      List.pairwise_map.mpr h
    rw [← hmap] at h'
    exact List.pairwise_map.mp h'
  · refine List.pairwise_append.mpr ⟨h, List.pairwise_singleton _ _, ?_⟩
    intro d _ e he _
    obtain rfl := List.mem_singleton.mp he
    rfl

theorem attach_distinct {out : List DataComponent} (half : BitVec 32 × Bytes)
    (h : Distinct out) : Distinct (attach out half) := by
  obtain ⟨j, -, hj, hiff⟩ := attach_spec out half.1 half.2
  intro i i' t ht hi hi'
  rcases (hiff i t ht).mp hi with hi | ⟨rfl, htt⟩ <;>
    rcases (hiff i' t ht).mp hi' with hi' | ⟨rfl, htt'⟩
  · exact h i i' t ht hi hi'
  · subst htt'
    rcases hj with hj | hj
    · exact h i i' _ ht hi hj
    · exact absurd hi (hj i)
  · subst htt
    rcases hj with hj | hj
    · exact h i i' _ ht hj hi'
    · exact absurd hi' (hj i')
  · rfl

theorem attach_persists {out : List DataComponent} (half : BitVec 32 × Bytes) {i : Nat}
    {t : BitVec 32} (ht : t ≠ 0) (h : HasType out i t) : HasType (attach out half) i t := by
  obtain ⟨j, -, -, hiff⟩ := attach_spec out half.1 half.2
  exact (hiff i t ht).mpr (.inl h)

/-- An invariant of `attach` is one of the whole second loop. -/
theorem foldl_attach {Q : List DataComponent → Prop} {ws : List (BitVec 32 × Bytes)}
    (hstep : ∀ out, ∀ half ∈ ws, Q out → Q (attach out half)) :
    ∀ {out : List DataComponent}, Q out → Q (ws.foldl attach out) := by
  induction ws with
  | nil => exact fun h => h
  | cons half ws ih =>
    intro out h
    exact ih (fun out half' hmem => hstep out half' (List.mem_cons_of_mem _ hmem))
      (hstep out half List.mem_cons_self h)

theorem halves_ne_zero : ∀ {c : List DataComponent}, ∀ half ∈ halves c, half.1 ≠ 0
  | [], _, h => by cases h
  | .unknown key typeId wire nbt :: ds, half, h => by
    rw [halves] at h
    split at h
    · next ht =>
      rcases List.mem_cons.mp h with rfl | h
      · exact ht
      · exact halves_ne_zero half h
    · exact halves_ne_zero half h
  | .damage _ :: ds, half, h | .maxDamage _ :: ds, half, h | .enchantments _ :: ds, half, h
  | .storedEnchantments _ :: ds, half, h | .customName _ :: ds, half, h
  | .repairCost _ :: ds, half, h | .attackRange _ :: ds, half, h | .food _ :: ds, half, h
  | .consumable _ :: ds, half, h => halves_ne_zero (c := ds) half h

theorem scan_savable : ∀ {entries : List (String × NbtTag)} {out : List DataComponent}
    {ws : List (BitVec 32 × Bytes)}, scan entries = .ok (out, ws) → ∀ d ∈ out, Savable d
  | [], out, ws, h, d, hd => by cases h; cases hd
  | (key, value) :: rest, out, ws, h, d, hd => by
    rw [scan] at h
    split at h
    · obtain ⟨half, -, h⟩ := bind_ok h
      obtain ⟨⟨out', ws'⟩, hscan, h⟩ := bind_ok h
      cases h
      exact scan_savable hscan d hd
    · next hstrip =>
      obtain ⟨c, hread, h⟩ := bind_ok h
      obtain ⟨⟨out', ws'⟩, hscan, h⟩ := bind_ok h
      cases h
      rcases List.mem_cons.mp hd with rfl | hd
      · exact readComponent_savable hread hstrip
      · exact scan_savable hscan d hd

/-! ## When the halves find each other -/

/-- The wire half of `d`, between `before` and `after`, is joined to `d` again: it is told apart
by its `#<id>` key, or there is no other component it could be taken for; a component known by
its wire id alone is taken for none. -/
def Joined (before : List DataComponent) (d : DataComponent) (after : List DataComponent) :
    Prop :=
  match d with
  | .unknown key typeId _ (some _) => typeId ≠ 0 →
    (key = hashKey typeId ∧ ∀ e ∈ before, ¬e.isHashed typeId) ∨
      ((∀ e ∈ before, ¬e.isUnknown 0) ∧ ∀ e ∈ after, ¬e.named)
  | .unknown _ typeId _ none =>
    (∀ e ∈ before, ¬e.isHashed typeId) ∧ before.countP (·.isUnknown 0) ≠ 1
  | _ => True

theorem heads_isUnknown : ∀ {S : List DataComponent} {d : DataComponent} {t : BitVec 32},
    d ∈ heads S → d.isUnknown t → t = 0
  | e :: S, d, t, hmem, hd => by
    rw [heads] at hmem
    split at hmem
    · exact heads_isUnknown hmem hd
    · rcases List.mem_cons.mp hmem with rfl | hmem
      · rcases e with _ | _ | _ | _ | _ | _ | _ | _ | _ | ⟨key, s, w, nbt⟩
        case unknown => exact (beq_iff_eq.mp hd).symm
        all_goals cases hd
      · exact heads_isUnknown hmem hd

theorem heads_named : ∀ {S : List DataComponent},
    (∀ d ∈ heads S, ¬d.isUnknown 0) ↔ ∀ d ∈ S, ¬d.named
  | [] => by simp [heads]
  | e :: S => by
    have ih := heads_named (S := S)
    rcases e with _ | _ | _ | _ | _ | _ | _ | _ | _ | ⟨key, s, w, _ | value⟩ <;>
      simp [heads, DataComponent.wireOnly, DataComponent.blank, DataComponent.isUnknown,
        DataComponent.named] at ih ⊢ <;> exact ih

theorem findIdx?_none_of {out : List DataComponent} {p : DataComponent → Bool}
    (h : ∀ d ∈ out, ¬p d) : out.findIdx? p = none :=
  List.findIdx?_eq_none_iff.mpr fun d hd => by simpa using h d hd

/-- Where the half of a named component lands. -/
theorem target_named {P R : List DataComponent} (key : String) (value : NbtTag)
    {t : BitVec 32} (ht : t ≠ 0) (hP : ∀ d ∈ P, ¬d.isUnknown t) (hR : ∀ d ∈ R, ¬d.isUnknown t) :
    target (P ++ keepNbt key value :: R) t = some P.length ↔
      (key = hashKey t ∧ ∀ d ∈ P, ¬d.isHashed t) ∨
        ((∀ d ∈ P, ¬d.isUnknown 0) ∧ ∀ d ∈ R, ¬d.isUnknown 0) := by
  have hself : (keepNbt key value).isUnknown t = false :=
    beq_eq_false_iff_ne.mpr fun h => ht h.symm
  have h1 : (P ++ keepNbt key value :: R).findIdx? (·.isUnknown t) = none := by
    rw [List.findIdx?_append, findIdx?_none_of hP, List.findIdx?_cons, hself,
      findIdx?_none_of hR]
    rfl
  rw [target, h1]
  by_cases hPh : ∀ d ∈ P, ¬d.isHashed t
  · by_cases hkey : key = hashKey t
    · have hh : (keepNbt key value).isHashed t = true := by
        simp [keepNbt, DataComponent.isHashed, hkey]
      have h2 : (P ++ keepNbt key value :: R).findIdx? (·.isHashed t) = some P.length := by
        rw [List.findIdx?_append, findIdx?_none_of hPh, List.findIdx?_cons, hh]
        simp
      rw [h2]
      exact ⟨fun _ => .inl ⟨hkey, hPh⟩, fun _ => rfl⟩
    · have hh : (keepNbt key value).isHashed t = false := by
        simp [keepNbt, DataComponent.isHashed, hkey]
      by_cases hRh : ∀ d ∈ R, ¬d.isHashed t
      · have h2 : (P ++ keepNbt key value :: R).findIdx? (·.isHashed t) = none := by
          rw [List.findIdx?_append, findIdx?_none_of hPh, List.findIdx?_cons, hh,
            findIdx?_none_of hRh]
          rfl
        have hcount : (P ++ keepNbt key value :: R).countP (·.isUnknown 0) =
            P.countP (·.isUnknown 0) + (R.countP (·.isUnknown 0) + 1) := by
          rw [List.countP_append, List.countP_cons_of_pos (by rfl)]
        rw [h2]
        change (if _ then _ else none) = some P.length ↔ _
        rw [hcount]
        by_cases h0 : (∀ d ∈ P, ¬d.isUnknown 0) ∧ ∀ d ∈ R, ¬d.isUnknown 0
        · rw [List.countP_eq_zero.mpr h0.1, List.countP_eq_zero.mpr h0.2, if_pos rfl,
            List.findIdx?_append, findIdx?_none_of h0.1, List.findIdx?_cons]
          exact ⟨fun _ => .inr h0, fun _ => by simp [keepNbt, DataComponent.isUnknown]⟩
        · rw [if_neg]
          · exact ⟨nofun, fun h => absurd h (not_or.mpr ⟨fun h => hkey h.1, h0⟩)⟩
          · intro hone
            have hp : P.countP (·.isUnknown 0) = 0 := by omega
            have hr : R.countP (·.isUnknown 0) = 0 := by omega
            exact h0 ⟨List.countP_eq_zero.mp hp, List.countP_eq_zero.mp hr⟩
      · -- a later component carries the key
        push Not at hRh
        obtain ⟨d, hd, hdh⟩ := hRh
        have h2 : ∃ i, (P ++ keepNbt key value :: R).findIdx? (·.isHashed t) =
            some (P.length + 1 + i) := by
          rw [List.findIdx?_append, findIdx?_none_of hPh, List.findIdx?_cons, hh]
          cases hi : R.findIdx? (·.isHashed t) with
          | none => exact absurd hdh (by simpa using List.findIdx?_eq_none_iff.mp hi d hd)
          | some i => exact ⟨i, by simp; omega⟩
        obtain ⟨i, h2⟩ := h2
        rw [h2]
        constructor
        · intro h
          have : P.length + 1 + i = P.length := Option.some.inj h
          omega
        · rintro (⟨h, -⟩ | ⟨-, h⟩)
          · exact absurd h hkey
          · exact absurd (isUnknown_of_isHashed d hdh) (h d hd)
  · -- an earlier component carries the key
    push Not at hPh
    obtain ⟨d, hd, hdh⟩ := hPh
    cases hi : P.findIdx? (·.isHashed t) with
    | none => exact absurd hdh (by simpa using List.findIdx?_eq_none_iff.mp hi d hd)
    | some i =>
      have hlt : i < P.length := (List.findIdx?_eq_some_iff_getElem.mp hi).1
      rw [List.findIdx?_append, hi]
      constructor
      · intro h
        have : i = P.length := Option.some.inj h
        omega
      · rintro (⟨-, h⟩ | ⟨h, -⟩)
        · exact absurd hdh (h d hd)
        · exact absurd (isUnknown_of_isHashed d hdh) (h d hd)

/-- When the half of a component known by its wire id alone is taken for no other. -/
theorem target_wireOnly {P : List DataComponent} {t : BitVec 32}
    (hP : ∀ d ∈ P, ¬d.isUnknown t) : target P t = none ↔
      (∀ d ∈ P, ¬d.isHashed t) ∧ P.countP (·.isUnknown 0) ≠ 1 := by
  rw [target, findIdx?_none_of hP]
  cases h2 : P.findIdx? (·.isHashed t) with
  | some i =>
    obtain ⟨hlt, hi, -⟩ := List.findIdx?_eq_some_iff_getElem.mp h2
    exact ⟨nofun, fun h => absurd hi (h.1 _ (List.getElem_mem hlt))⟩
  | none =>
    have hhash : ∀ d ∈ P, ¬d.isHashed t := by simpa using List.findIdx?_eq_none_iff.mp h2
    change (if _ then _ else none) = none ↔ _
    by_cases hone : P.countP (·.isUnknown 0) = 1
    · rw [if_pos hone]
      refine ⟨fun hnone => ?_, fun h => absurd hone h.2⟩
      have hzero : P.countP (·.isUnknown 0) = 0 :=
        List.countP_eq_zero.mpr (by simpa using List.findIdx?_eq_none_iff.mp hnone)
      omega
    · rw [if_neg hone]
      exact ⟨fun _ => ⟨hhash, hone⟩, fun _ => rfl⟩

/-! ## A patch that survives its save -/

/-- mirrors the reload of a saved stack: no `components` entry stands for the empty patch -/
def SavedBack (c : ItemComponents) : Prop :=
  match toNbt c with
  | none => c = []
  | some t => fromNbt t = .ok c

/-- Exactly the patches a save gives back (`savedBack_iff`). -/
structure Restorable (c : ItemComponents) : Prop where
  savable : ∀ d ∈ c, Savable d
  marked : ∀ d ∈ c, Marked d
  distinct : Distinct c
  wireLast : WireLast c
  joined : ∀ before d after, c = before ++ d :: after → Joined before d after

theorem savedBack_eq {c : ItemComponents} (hne : c ≠ []) (h : ∀ d ∈ c, Savable d) :
    SavedBack c ↔ (halves c).foldl attach (heads c) = c := by
  have hempty : ¬c.isEmpty := by simpa using hne
  rw [SavedBack, toNbt, if_neg hempty]
  change (do let (out, wires) ← scan (c.flatMap entriesOf); return wires.foldl attach out) =
    (.ok c : ServerResult _) ↔ _
  rw [scan_entriesOf h]
  exact ⟨fun h => Except.ok.inj h, fun h => congrArg Except.ok h⟩

theorem heads_wireOnly {S : List DataComponent} (h : ∀ d ∈ S, d.wireOnly) : heads S = [] := by
  induction S with
  | nil => rfl
  | cons d S ih =>
    rw [heads, if_pos (h d List.mem_cons_self)]
    exact ih fun e he => h e (List.mem_cons_of_mem _ he)

/-- After a component known by its wire id alone come only such components. -/
theorem WireLast.heads_after {P S : List DataComponent} {d : DataComponent}
    (h : WireLast (P ++ d :: S)) (hd : d.wireOnly) : heads S = [] :=
  heads_wireOnly fun e he =>
    (List.pairwise_cons.mp (List.pairwise_append.mp h).2.1).1 e he hd

theorem hasType_middle {P S : List DataComponent} {d : DataComponent} {t : BitVec 32}
    (hd : d.isUnknown t) : HasType (P ++ d :: S) P.length t :=
  ⟨d, by simp, hd⟩

/-- The components before one of a nonzero wire id have other ids. -/
theorem Distinct.before {P S : List DataComponent} {d : DataComponent} {t : BitVec 32}
    (h : Distinct (P ++ d :: S)) (ht : t ≠ 0) (hd : d.isUnknown t) :
    ∀ e ∈ P, ¬e.isUnknown t := by
  intro e he htype
  obtain ⟨i, hlt, rfl⟩ := List.getElem_of_mem he
  have hi : HasType (P ++ d :: S) i t :=
    ⟨P[i], by rw [List.getElem?_append_left hlt, List.getElem?_eq_getElem hlt], htype⟩
  have := h i P.length t ht hi (hasType_middle hd)
  omega

/-- A half of a nonzero id ends up where the final patch has that id. -/
theorem target_of_final {out c : List DataComponent} {ws : List (BitVec 32 × Bytes)}
    {t : BitVec 32} {wire : Bytes} {i : Nat} (ht : t ≠ 0)
    (hfinal : ws.foldl attach (attach out (t, wire)) = c)
    (hdistinct : Distinct c) (hi : HasType c i t) :
    target out t = some i ∨ (target out t = none ∧ i = out.length) := by
  obtain ⟨j, hj, -, hiff⟩ := attach_spec out t wire
  have hjt : HasType (attach out (t, wire)) j t := (hiff j t ht).mpr (.inr ⟨rfl, rfl⟩)
  have hjc : HasType (ws.foldl attach (attach out (t, wire))) j t :=
    foldl_attach (Q := fun out => HasType out j t)
      (fun _ half _ h => attach_persists half ht h) hjt
  rw [hfinal] at hjc
  rw [hdistinct i j t ht hi hjc]
  exact hj

/-- The three shapes of a component in the second loop. -/
theorem marked_cases {d : DataComponent} (h : Marked d) :
    (∀ S, heads (d :: S) = d :: heads S ∧ halves (d :: S) = halves S ∧ ∀ P, Joined P d S) ∨
      (∃ key t wire value, t ≠ 0 ∧ d = .unknown key t wire (some value)) ∨
      ∃ t wire, t ≠ 0 ∧ d = unknownFromWire t wire := by
  rcases d with _ | _ | _ | _ | _ | _ | _ | _ | _ | ⟨key, t, wire, nbt⟩
  case unknown =>
    cases nbt with
    | some value =>
      by_cases ht : t = 0
      · subst ht
        obtain rfl : wire = [] := h rfl
        exact .inl fun S => ⟨rfl, rfl, fun P h0 => absurd rfl h0⟩
      · exact .inr (.inl ⟨key, t, wire, value, ht, rfl⟩)
    | none =>
      obtain ⟨ht, rfl⟩ : t ≠ 0 ∧ key = hashKey t := h
      exact .inr (.inr ⟨t, wire, ht, rfl⟩)
  all_goals exact .inl fun S => ⟨rfl, rfl, fun P => trivial⟩

theorem attach_named {P S : List DataComponent} {key : String} {t : BitVec 32} {wire : Bytes}
    {value : NbtTag} (h : target (P ++ keepNbt key value :: S) t = some P.length) :
    attach (P ++ keepNbt key value :: S) (t, wire) =
      P ++ .unknown key t wire (some value) :: S := by
  simp only [attach, h]
  rw [List.modify_eq_take_cons_drop (by simp)]
  simp [keepNbt, DataComponent.setWire]

theorem joined_cons {P S : List DataComponent} {d : DataComponent} :
    (∀ S₁ e S₂, d :: S = S₁ ++ e :: S₂ → Joined (P ++ S₁) e S₂) ↔
      Joined P d S ∧ ∀ S₁ e S₂, S = S₁ ++ e :: S₂ → Joined (P ++ [d] ++ S₁) e S₂ := by
  constructor
  · intro h
    refine ⟨by simpa using h [] d S rfl, fun S₁ e S₂ hS => ?_⟩
    have := h (d :: S₁) e S₂ (by rw [hS, List.cons_append])
    rwa [List.append_cons] at this
  · rintro ⟨hd, hS⟩ S₁ e S₂ heq
    cases S₁ with
    | nil => cases heq; simpa using hd
    | cons d' S₁ =>
      obtain ⟨rfl, htail⟩ := List.cons.inj heq
      rw [List.append_cons]
      exact hS S₁ e S₂ htail

/-- The second loop gives the patch back exactly when every half is joined to its component. -/
theorem foldl_attach_iff : ∀ (S P : List DataComponent), (∀ d ∈ S, Marked d) →
    Distinct (P ++ S) → WireLast (P ++ S) →
    ((halves S).foldl attach (P ++ heads S) = P ++ S ↔
      ∀ S₁ d S₂, S = S₁ ++ d :: S₂ → Joined (P ++ S₁) d S₂)
  | [], P, _, _, _ => by simp [heads, halves]
  | d :: S, P, hmarked, hdistinct, hlast => by
    have hS : ∀ e ∈ S, Marked e := fun e he => hmarked e (List.mem_cons_of_mem _ he)
    have ih := foldl_attach_iff S (P ++ [d]) hS (by simpa using hdistinct) (by simpa using hlast)
    rw [List.append_assoc, List.append_assoc, List.singleton_append, List.singleton_append] at ih
    rw [joined_cons]
    rcases marked_cases (hmarked d List.mem_cons_self) with hplain | hnamed | hwire
    · obtain ⟨hheads, hhalves, hjoined⟩ := hplain S
      rw [hheads, hhalves, ih]
      exact ⟨fun h => ⟨hjoined P, h⟩, fun h => h.2⟩
    · obtain ⟨key, t, wire, value, ht, rfl⟩ := hnamed
      have htype : DataComponent.isUnknown t (.unknown key t wire (some value)) :=
        beq_self_eq_true t
      have hhalves : halves (.unknown key t wire (some value) :: S) = (t, wire) :: halves S :=
        if_pos ht
      have hheads : heads (.unknown key t wire (some value) :: S) =
          keepNbt key value :: heads S := rfl
      have htarget := target_named key value ht
        (hdistinct.before ht htype) (R := heads S)
        (fun e he htype' => ht (heads_isUnknown he htype'))
      rw [heads_named] at htarget
      rw [hheads, hhalves, List.foldl_cons]
      constructor
      · intro hfinal
        rcases target_of_final ht hfinal hdistinct (hasType_middle htype) with hsome | ⟨-, hlen⟩
        · rw [attach_named hsome] at hfinal
          exact ⟨fun _ => htarget.mp hsome, ih.mp hfinal⟩
        · simp at hlen
      · rintro ⟨hjoined, hrest⟩
        rw [attach_named (htarget.mpr (hjoined ht))]
        exact ih.mpr hrest
    · obtain ⟨t, wire, ht, rfl⟩ := hwire
      have htype : DataComponent.isUnknown t (unknownFromWire t wire) := beq_self_eq_true t
      have hhalves : halves (unknownFromWire t wire :: S) = (t, wire) :: halves S := if_pos ht
      have hheads : heads (unknownFromWire t wire :: S) = [] := hlast.heads_after rfl
      have hafter : heads S = [] := hlast.heads_after (d := unknownFromWire t wire) rfl
      have htarget := target_wireOnly (hdistinct.before ht htype)
      rw [hafter] at ih
      rw [hheads, hhalves, List.foldl_cons, List.append_nil]
      constructor
      · intro hfinal
        rcases target_of_final ht hfinal hdistinct (hasType_middle htype) with hsome | ⟨hnone, -⟩
        · obtain ⟨e, he, -⟩ := target_isUnknown hsome
          have := (List.getElem?_eq_some_iff.mp he).1
          omega
        · have hattach : attach P (t, wire) = P ++ [unknownFromWire t wire] := by
            simp only [attach, hnone]
          rw [hattach] at hfinal
          exact ⟨htarget.mp hnone, ih.mp hfinal⟩
      · rintro ⟨hjoined, hrest⟩
        have hattach : attach P (t, wire) = P ++ [unknownFromWire t wire] := by
          simp only [attach, htarget.mpr hjoined]
        rw [hattach]
        exact ih.mpr hrest

theorem foldl_attach_savable {out c : List DataComponent} {ws : List (BitVec 32 × Bytes)}
    (hout : ∀ d ∈ out, Savable d) (hfinal : ws.foldl attach out = c) : ∀ d ∈ c, Savable d := by
  rw [← hfinal]
  exact foldl_attach (Q := fun out => ∀ d ∈ out, Savable d)
    (fun _ half _ h => attach_savable half h) hout

/-- Whatever a load gives has plain keys and quiet floats. -/
theorem fromNbt_savable {t : NbtTag} {c : ItemComponents} (h : fromNbt t = .ok c) :
    ∀ d ∈ c, Savable d := by
  rw [fromNbt] at h
  split at h
  · cases h
  · obtain ⟨⟨out, ws⟩, hscan, h⟩ := bind_ok h
    exact foldl_attach_savable (scan_savable hscan) (Except.ok.inj h)

theorem mem_heads : ∀ {c : List DataComponent} {d : DataComponent}, d ∈ heads c →
    d.wireOnly = false ∧ Marked d ∧ ∀ t, d.isUnknown t → t = 0
  | e :: c, d, hd => by
    rw [heads] at hd
    split at hd
    · exact mem_heads hd
    · next hwire =>
      rcases List.mem_cons.mp hd with rfl | hd
      · rcases e with _ | _ | _ | _ | _ | _ | _ | _ | _ | ⟨key, t, w, _ | value⟩
        case unknown.some =>
          exact ⟨rfl, fun _ => rfl, fun s hs => (beq_iff_eq.mp hs).symm⟩
        case unknown.none => exact absurd rfl hwire
        all_goals exact ⟨rfl, trivial, nofun⟩
      · exact mem_heads hd

/-- The second loop, started on a saved patch, keeps what its start has. -/
theorem foldl_heads {c d : List DataComponent} (h : (halves c).foldl attach (heads c) = d) :
    (∀ e ∈ d, Marked e) ∧ Distinct d ∧ WireLast d := by
  have hmarked : ∀ e ∈ heads c, Marked e := fun e he => (mem_heads he).2.1
  have hdistinct : Distinct (heads c) := by
    rintro i j t ht ⟨e, he, htype⟩
    exact absurd ((mem_heads (List.mem_of_getElem? he)).2.2 t htype) ht
  have hlast : WireLast (heads c) := by
    refine List.pairwise_of_forall_mem_list fun e he _ _ hwire => ?_
    rw [(mem_heads he).1] at hwire
    cases hwire
  rw [← h]
  exact ⟨foldl_attach (Q := fun out => ∀ e ∈ out, Marked e)
      (fun _ half hmem h => attach_marked (halves_ne_zero half hmem) h) hmarked,
    foldl_attach (fun _ half _ h => attach_distinct half h) hdistinct,
    foldl_attach (fun _ half _ h => attach_wireLast half h) hlast⟩

/-- Saving and loading gives a patch back exactly when it is `Restorable`. -/
theorem savedBack_iff_restorable (c : ItemComponents) : SavedBack c ↔ Restorable c := by
  by_cases hne : c = []
  · subst hne
    refine ⟨fun _ => ⟨nofun, nofun, ?_, List.Pairwise.nil, ?_⟩, fun _ => rfl⟩
    · rintro _ _ _ _ ⟨_, h, _⟩
      cases h
    · intro before d after h
      simp at h
  · have hjoined : (∀ d ∈ c, Marked d) → Distinct c → WireLast c →
        ((halves c).foldl attach (heads c) = c ↔
          ∀ before d after, c = before ++ d :: after → Joined before d after) := by
      intro hmarked hdistinct hlast
      exact foldl_attach_iff c [] hmarked hdistinct hlast
    constructor
    · intro h
      have hsavable : ∀ d ∈ c, Savable d := by
        rw [SavedBack, toNbt, if_neg (by simpa using hne)] at h
        exact fromNbt_savable h
      have hfinal := (savedBack_eq hne hsavable).mp h
      obtain ⟨hmarked, hdistinct, hlast⟩ := foldl_heads hfinal
      exact ⟨hsavable, hmarked, hdistinct, hlast, (hjoined hmarked hdistinct hlast).mp hfinal⟩
    · intro h
      exact (savedBack_eq hne h.savable).mpr ((hjoined h.marked h.distinct h.wireLast).mpr h.joined)

end Apoptosis.L1.Components

/-! ## The typed patch of a wire stack -/

namespace Apoptosis.L1.Inventory
open Apoptosis.Core.Codec Apoptosis.Core.Framing Apoptosis.L1.Components Apoptosis.L1.Nbt

/-- One turn of the loop of `to_typed_components`. -/
def toTyped (entry : BitVec 32 × Bytes) : ServerResult DataComponent :=
  if DataComponent.isKnownType entry.1 then decodePayload entry.1 entry.2
  else .ok (unknownFromWire entry.1 entry.2)

/-- mirrors crates/protocol/src/packets/play/inventory.rs:338-348
(`ItemStack::to_typed_components`) -/
def ItemStack.toTypedComponents (s : ItemStack) : ServerResult ItemComponents :=
  s.components.mapM toTyped

/-- The loop of `from_typed_components`: a component without wire id is skipped. -/
def fromTyped : ItemComponents → ServerResult (List (BitVec 32 × Bytes))
  | [] => .ok []
  | component :: rest =>
    if component.typeId = 0 then fromTyped rest
    else do
      let payload ← encodePayload component
      let wire ← fromTyped rest
      return (component.typeId, payload) :: wire

/-- mirrors crates/protocol/src/packets/play/inventory.rs:355-379
(`ItemStack::from_typed_components`) -/
def ItemStack.fromTypedComponents (itemId count : BitVec 32) (components : ItemComponents) :
    ServerResult ItemStack := do
  let wire ← fromTyped components
  return ⟨itemId, count, wire⟩

/-- The payload is one the encoder writes for its type; an unmodelled type has no encoder. -/
def Canonical (entry : BitVec 32 × Bytes) : Prop :=
  DataComponent.isKnownType entry.1 → ∃ d : DataComponent, (∀ k t w n, d ≠ .unknown k t w n) ∧
    d.typeId = entry.1 ∧ encodePayload d = .ok entry.2

/-- The typed component of an entry has the entry's wire id. -/
theorem toTyped_typeId {entry : BitVec 32 × Bytes} {d : DataComponent}
    (h : toTyped entry = .ok d) : d.typeId = entry.1 := by
  rcases ite_eq_ok h with ⟨-, h⟩ | ⟨-, h⟩
  · exact decodePayload_typeId h
  · cases h; rfl

theorem toTyped_encode {entry : BitVec 32 × Bytes} {d : DataComponent}
    (h : toTyped entry = .ok d) (hcanon : Canonical entry) : encodePayload d = .ok entry.2 := by
  rcases ite_eq_ok h with ⟨hknown, h⟩ | ⟨-, h⟩
  · obtain ⟨e, he, htype, henc⟩ := hcanon hknown
    rw [← htype] at h
    exact encode_decode_payload he henc h
  · cases h; rfl

/-- The entries of nonzero wire id come back. -/
theorem fromTyped_toTyped : ∀ {entries : List (BitVec 32 × Bytes)} {c : ItemComponents},
    entries.mapM toTyped = .ok c → (∀ entry ∈ entries, Canonical entry) →
      fromTyped c = .ok (entries.filter (·.1 != 0))
  | [], c, h, _ => by
    cases h; rfl
  | entry :: entries, c, h, hcanon => by
    rw [List.mapM_cons] at h
    obtain ⟨d, hd, h⟩ := bind_ok h
    obtain ⟨ds, hds, h⟩ := bind_ok h
    cases h
    have ih := fromTyped_toTyped hds fun e he => hcanon e (List.mem_cons_of_mem _ he)
    have hid := toTyped_typeId hd
    rw [fromTyped]
    by_cases h0 : entry.1 = 0
    · rw [if_pos (hid.trans h0), ih, List.filter_cons_of_neg (by simp [h0])]
    · rw [if_neg (by rw [hid]; exact h0), toTyped_encode hd (hcanon entry List.mem_cons_self), ih,
        List.filter_cons_of_pos (by simpa using h0), hid]
      rfl

theorem fromTypedComponents_iff {s : ItemStack} {c : ItemComponents}
    (h : s.toTypedComponents = .ok c) (hcanon : ∀ entry ∈ s.components, Canonical entry) :
    ItemStack.fromTypedComponents s.itemId s.count c = .ok s ↔
      ∀ entry ∈ s.components, entry.1 ≠ 0 := by
  have hwire := fromTyped_toTyped h hcanon
  simp only [ItemStack.fromTypedComponents, hwire]
  constructor
  · intro heq entry hmem
    have hlist : s.components.filter (·.1 != 0) = s.components :=
      congrArg ItemStack.components (Except.ok.inj heq)
    simpa using List.filter_eq_self.mp hlist entry hmem
  · intro hne
    have hlist : s.components.filter (·.1 != 0) = s.components :=
      List.filter_eq_self.mpr fun entry hmem => by simpa using hne entry hmem
    rw [hlist]
    rfl

/-- A save gives exactly the `Restorable` patches back, entry for entry; the wire list a patch
was decoded from is rebuilt from it exactly when no component has the wire id 0. -/
theorem components_kept_iff (c : ItemComponents) (s : ItemStack) (received : ItemComponents)
    (h : s.toTypedComponents = .ok received) (hcanon : ∀ entry ∈ s.components, Canonical entry) :
    (SavedBack c ↔ Restorable c) ∧
      (ItemStack.fromTypedComponents s.itemId s.count received = .ok s ↔
        ∀ entry ∈ s.components, entry.1 ≠ 0) :=
  ⟨savedBack_iff_restorable c, fromTypedComponents_iff h hcanon⟩

theorem restorable_damage (v : BitVec 32) : Restorable [.damage v] where
  savable := by
    intro d hd
    obtain rfl := List.mem_singleton.mp hd
    exact savable_of_no_floats rfl rfl
  marked := by
    intro d hd
    obtain rfl := List.mem_singleton.mp hd
    trivial
  distinct := by
    rintro i j t ht ⟨d, hd, htype⟩
    obtain rfl := List.mem_singleton.mp (List.mem_of_getElem? hd)
    cases htype
  wireLast := List.pairwise_singleton _ _
  joined := by
    intro before d after hc
    have hd : d ∈ [DataComponent.damage v] := by rw [hc]; simp
    obtain rfl := List.mem_singleton.mp hd
    trivial

theorem components_kept_damage :
    SavedBack [.damage 7] ∧ ItemStack.fromTypedComponents 1 1 [.damage 7] =
      .ok ⟨1, 1, [(TYPE_DAMAGE, [7])]⟩ := by
  have hcanon : ∀ entry ∈ [(TYPE_DAMAGE, ([7] : Bytes))], Canonical entry := by
    intro entry hmem _
    obtain rfl := List.mem_singleton.mp hmem
    exact ⟨.damage 7, nofun, rfl, rfl⟩
  obtain ⟨hsave, hwire⟩ := components_kept_iff [.damage 7] ⟨1, 1, [(TYPE_DAMAGE, [7])]⟩
    [.damage 7] rfl hcanon
  exact ⟨hsave.mpr (restorable_damage 7), hwire.mpr (by decide)⟩

/-- A received component of the wire id 0 is dropped by the save and by the next packet. -/
theorem type_zero_component_lost :
    ItemStack.decode [1, 1, 1, 0, 0, 42] = .ok (⟨1, 1, [(0, [42])]⟩, []) ∧
      (⟨1, 1, [(0, [42])]⟩ : ItemStack).toTypedComponents = .ok [unknownFromWire 0 [42]] ∧
      Canonical (0, [42]) ∧ ¬SavedBack [unknownFromWire 0 [42]] ∧
      ItemStack.fromTypedComponents 1 1 [unknownFromWire 0 [42]] ≠ .ok ⟨1, 1, [(0, [42])]⟩ := by
  refine ⟨by rfl, rfl, nofun, ?_, ?_⟩
  · intro h
    have hempty : ([] : ItemComponents) = [unknownFromWire 0 [42]] := Except.ok.inj h
    cases hempty
  · intro h
    have hempty : (⟨1, 1, []⟩ : ItemStack) = ⟨1, 1, [(0, [42])]⟩ := Except.ok.inj h
    cases hempty

end Apoptosis.L1.Inventory
