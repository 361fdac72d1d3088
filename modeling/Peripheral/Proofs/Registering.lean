import Mathlib.Data.List.Forall2
import Peripheral.Proofs.Assembly
import Peripheral.Proofs.Submission

/-!
# Names of devices and owners of units

A registry keeps its devices in a table, and every unit keeps the place of the device that declared it last.
Names are compared without regard to the case of ASCII letters. A device whose name is taken is ignored, so a
place that was given once stands for the same device ever after.

* `CaseVariant` : names that are the same but for the case of ASCII letters (`sameName_iff`);
* `Registry.effective` : of the devices that registration is asked for, those whose names are new
  (`pairwise_effective`);
* `Scheduler.Labelled` : the owners of all units; **no call, no program and no dispatch changes them**
  (`Labelled.perform`, `labelled_exec`, `labelled_fire`, `labelled_run`);
* `Registry.Enrolls` : devices are registered one after the other, and programs are run in between; the table
  only grows (`Enrolls.grows`);
* `Registry.Sound` : table and owners are those of the effective devices (`Sound.register`, `Enrolls.sound`);
* `registry_agrees_with_owners` : **lookup, registration and ownership agree after any history**.
-/

namespace Peripheral

variable {σ ω : Type}

/-! ## Names -/

/-- The same character, or the two cases of an ASCII letter: the small letter comes 32 places later. -/
def SameLetter (c d : Char) : Prop :=
  c = d ∨ (c.isUpper ∧ d.toNat = c.toNat + 32) ∨ (d.isUpper ∧ c.toNat = d.toNat + 32)

/-- The same name but for the case of ASCII letters. -/
def CaseVariant (a b : String) : Prop := List.Forall₂ SameLetter a.toList b.toList

theorem isUpper_iff {c : Char} : c.isUpper ↔ 65 ≤ c.toNat ∧ c.toNat ≤ 90 := by
  show decide (c.val ≥ 'A'.val ∧ c.val ≤ 'Z'.val) = true ↔ _
  simp only [decide_eq_true_eq, ge_iff_le, UInt32.le_iff_toNat_le]
  rfl

theorem toNat_toLower (c : Char) :
    c.toLower.toNat = if 65 ≤ c.toNat ∧ c.toNat ≤ 90 then c.toNat + 32 else c.toNat := by
  have range : (c.val ≥ 'A'.val ∧ c.val ≤ 'Z'.val) ↔ 65 ≤ c.toNat ∧ c.toNat ≤ 90 := by
    simp only [ge_iff_le, UInt32.le_iff_toNat_le]
    rfl
  unfold Char.toLower
  split
  · rename_i upper
    have small := range.1 upper
    rw [if_pos small]
    show (c.val + 32).toNat = c.toNat + 32
    rw [UInt32.toNat_add]
    refine Nat.mod_eq_of_lt ?_
    show c.toNat + 32 < 2 ^ 32
    omega
  · rename_i other
    rw [if_neg fun upper => other (range.2 upper)]

theorem toLower_eq_iff {c d : Char} : c.toLower = d.toLower ↔ SameLetter c d := by
  rw [← Char.toNat_inj, toNat_toLower, toNat_toLower]
  simp only [SameLetter, ← Char.toNat_inj, isUpper_iff]
  split <;> split <;> omega

theorem caseVariant_iff {a b : String} :
    CaseVariant a b ↔ a.toList.map Char.toLower = b.toList.map Char.toLower := by
  rw [CaseVariant, ← List.forall₂_eq_eq_eq, List.forall₂_map_left_iff, List.forall₂_map_right_iff]
  simp only [toLower_eq_iff]

theorem sameName_iff {a b : String} : sameName a b = true ↔ CaseVariant a b := by
  rw [sameName, beq_iff_eq, caseVariant_iff]

theorem CaseVariant.symm {a b : String} (same : CaseVariant a b) : CaseVariant b a :=
  caseVariant_iff.2 (caseVariant_iff.1 same).symm

theorem CaseVariant.trans {a b c : String} (first : CaseVariant a b) (second : CaseVariant b c) :
    CaseVariant a c :=
  caseVariant_iff.2 ((caseVariant_iff.1 first).trans (caseVariant_iff.1 second))

instance : DecidableRel CaseVariant := fun _ _ => decidable_of_iff _ sameName_iff

/-! ## Owners through calls, programs and dispatches -/

namespace Scheduler

/-- There are so many units at least, and all units are owned as given. -/
structure Labelled (owner : UnitId → Option Nat) (count : Nat) (s : Scheduler σ ω) : Prop where
  owner : ∀ u, (s.slot u).owner = owner u
  count : count ≤ s.slots.size

section
variable {owner : UnitId → Option Nat} {count : Nat} {s t : Scheduler σ ω}

theorem Labelled.of_slots (here : s.Labelled owner count) (same : t.slots = s.slots) :
    t.Labelled owner count :=
  ⟨fun u => by rw [slot_of_slots same, here.owner], same ▸ here.count⟩

theorem Labelled.modifySlot (here : s.Labelled owner count) (u : UnitId) (f : Slot ω → Slot ω)
    (keeps : ∀ slot, (f slot).owner = slot.owner) : (s.modifySlot u f).Labelled owner count :=
  ⟨fun v => (field_modifySlot Slot.owner u v f s keeps).trans (here.owner v),
    (size_modifySlot u f s).symm ▸ here.count⟩

theorem steady_labelled : Steady (Labelled owner count : Scheduler σ ω → Prop) where
  tell _ _ here := here.of_slots rfl
  stop _ _ here := here.of_slots rfl
  dispatching _ _ here := here.of_slots rfl
  settle _ here := here.of_slots rfl
  rearm _ here _ := here.of_slots rfl

variable [MediaStore σ]

/-- No call changes the owner of a unit, and a unit that is added has none. -/
theorem owner_perform (s : Scheduler σ ω) (c : Call) (u : UnitId) :
    ((s.perform c).2.slot u).owner = (s.slot u).owner := by
  have modified : ∀ (t : Scheduler σ ω) (v : UnitId) (f : Slot ω → Slot ω), t.slots = s.slots →
      (∀ slot, (f slot).owner = slot.owner) → ((t.modifySlot v f).slot u).owner = (s.slot u).owner := by
    intro t v f same keeps
    rw [field_modifySlot Slot.owner v u f t keeps, slot_of_slots same]
  cases c with
  | activate v ticks => exact congrArg Slot.owner (slot_activate v u ticks s)
  | activateAfter v usecs =>
    dsimp only [perform]
    rw [slot_activateAfter]
    split <;> rfl
  | cancel v =>
    dsimp only [perform]
    rw [slot_cancel]
    split <;> rfl
  | addUnit e =>
    dsimp only [perform]
    rw [slot_addUnit]
    split
    · rename_i new
      rw [slot_of_size_le (Nat.le_of_eq new.symm)]
      rfl
    · rfl
  | setPosition v offset => exact modified s v _ rfl fun _ => rfl
  | setCapacity v bytes => exact modified s v _ rfl fun _ => rfl
  | attach v name => exact modified { s with media := _ } v _ rfl fun _ => rfl
  | detach v => exact modified { s with media := _ } v _ rfl fun _ => rfl
  | write v offset data => exact modified { s with media := _ } v _ rfl fun _ => rfl
  | transfer v sectorSize request => exact modified { s with media := _ } v _ rfl fun _ => rfl
  | _ => rfl

theorem Labelled.perform (here : s.Labelled owner count) (c : Call) :
    (s.perform c).2.Labelled owner count :=
  ⟨fun u => (owner_perform s c u).trans (here.owner u), Nat.le_trans here.count (size_perform s c)⟩

/-- By induction on the program: whatever it does, owners stay, if they do in dispatches from inside it. -/
theorem labelled_exec {dispatch : Motion σ ω} (keeps : dispatch.Keeps (Labelled owner count)) (p : Program ω) :
    Motion.Keeps (Labelled owner count) (p.exec dispatch) := by
  induction p with
  | done result =>
    rintro s here _ _ ⟨⟩
    exact here
  | call c next ih => exact fun s here => ih _ _ (here.perform c)
  | look next ih => exact fun s here => ih s.world s here
  | change f next ih => exact fun s here => ih _ (here.of_slots rfl)
  | setAction u action next _ ih => exact fun s here => ih _ (here.modifySlot u _ fun _ => rfl)
  | setHook u hook next ih => exact fun s here => ih _ (here.modifySlot u _ fun _ => rfl)
  | park u delay outcome deliver next _ ih => exact fun s here => ih _ (here.modifySlot u _ fun _ => rfl)
  | dispatch next ih =>
    intro s here result t ended
    rw [Program.exec] at ended
    split at ended
    · cases ended
    · rename_i dispatched
      exact ih _ _ (keeps s here _ _ dispatched) result t ended

theorem labelled_fire {dispatch : Motion σ ω} (keeps : dispatch.Keeps (Labelled owner count)) (u : UnitId) :
    Motion.Keeps (Labelled owner count) (fire dispatch u) := by
  intro s here result t fired
  have told : ∀ m, (s.tell m).Labelled owner count := fun m => here.of_slots rfl
  cases fired_of_fire fired with
  | waits =>
    have due := (told (.requeueing (s.slot u).endpoint.name (s.slot u).delay)).modifySlot u
      (fun slot => { slot with delay := 0 }) fun _ => rfl
    exact due.perform (.activateAfter u (s.slot u).delay)
  | handsOver _ _ ended =>
    refine labelled_exec keeps _ _ ?_ _ _ ended
    exact (told _).modifySlot u _ fun _ => rfl
  | rests => exact told _
  | @acts action _ last _ _ _ ended =>
    have left : last.Labelled owner count := by
      refine labelled_exec keeps _ _ ?_ _ _ ended
      exact (told _).modifySlot u _ fun _ => rfl
    exact left.modifySlot u _ fun _ => rfl

theorem labelled_run (p : Program ω) (pops : Nat) :
    Motion.Keeps (Labelled owner count) (p.run pops : Motion σ ω) := by
  have steady : Steady (Labelled owner count : Scheduler σ ω → Prop) := steady_labelled
  refine labelled_exec (process_keeps steady (fun _ => id) (fun s => steady.stop s false) steady.settle ?_) p
  refine drain_keeps steady (fun dispatch keeps u agenda s here _ => ?_) pops
  exact labelled_fire keeps u { s with agenda } (here.of_slots rfl)

end

end Scheduler

/-! ## Registration -/

namespace Registry

/-- The devices that registration has an effect for, the latest first: no earlier one of them has their name in
any case. -/
def effective : List (Device ω) → List (Device ω)
  | [] => []
  | d :: earlier =>
    if ∃ e ∈ effective earlier, CaseVariant e.name d.name then effective earlier else d :: effective earlier

/-- Devices are registered one after the other, the latest first in the list, on units that there are. In
between, programs are run. -/
inductive Enrolls [MediaStore σ] (r₀ : Registry ω) (s₀ : Scheduler σ ω) :
    List (Device ω) → Registry ω → Scheduler σ ω → Prop
  | start : Enrolls r₀ s₀ [] r₀ s₀
  | register {asked : List (Device ω)} {r : Registry ω} {s : Scheduler σ ω} (d : Device ω) :
    Enrolls r₀ s₀ asked r s → (∀ u ∈ d.units, u < s.slots.size) →
      Enrolls r₀ s₀ (d :: asked) (r.register d s).2.1 (r.register d s).2.2
  | run {asked : List (Device ω)} {r : Registry ω} {s t : Scheduler σ ω} {p : Program ω} {pops : Nat}
      {result : Result} :
    Enrolls r₀ s₀ asked r s → p.run pops s = some (result, t) → Enrolls r₀ s₀ asked r t

section
variable {asked : List (Device ω)} {r : Registry ω} {s : Scheduler σ ω} {d e : Device ω} {i : Nat}

theorem pairwise_effective (asked : List (Device ω)) :
    (effective asked).Pairwise fun d e => ¬CaseVariant d.name e.name := by
  induction asked with
  | nil => exact .nil
  | cons d earlier ih =>
    rw [effective]
    split
    · exact ih
    · rename_i new
      refine List.pairwise_cons.2 ⟨fun e there same => new ⟨e, there, same.symm⟩, ih⟩

theorem findId?_eq_none_iff {name : String} :
    r.findId? name = none ↔ ∀ e ∈ r.devices.toList, ¬CaseVariant e.name name := by
  simp only [findId?, List.findIdx?_eq_none_iff, ← sameName_iff, Bool.not_eq_true]

theorem of_findId? {name : String} (found : r.findId? name = some i) :
    ∃ e, r.devices[i]? = some e ∧ CaseVariant e.name name := by
  obtain ⟨inside, same, -⟩ := List.findIdx?_eq_some_iff_getElem.1 found
  refine ⟨r.devices.toList[i], ?_, sameName_iff.1 same⟩
  rw [← Array.getElem?_toList, List.getElem?_eq_getElem inside]

theorem register_of_taken (found : r.findId? d.name = some i) (s : Scheduler σ ω) :
    r.register d s = (i, r, s.tell (.alreadyRegistered d.name)) := by
  rw [register, found]

theorem register_of_new (free : r.findId? d.name = none) (s : Scheduler σ ω) :
    r.register d s = (r.devices.size, ⟨r.devices.push d⟩,
      (setOwner r.devices.size d.units s).tell (.registered d.name d.units.length)) := by
  rw [register, free]

theorem getElem?_register (there : r.devices[i]? = some e) (d : Device ω) (s : Scheduler σ ω) :
    (r.register d s).2.1.devices[i]? = some e := by
  cases found : r.findId? d.name with
  | some j => rwa [register_of_taken found]
  | none =>
    rw [register_of_new found]
    dsimp only
    have inside : i ≠ r.devices.size := by
      rintro rfl
      rw [Array.getElem?_eq_none (Nat.le_refl _)] at there
      cases there
    rw [Array.getElem?_push, if_neg inside]
    exact there

theorem owner_setOwner (id : Nat) {units : List UnitId} {s : Scheduler σ ω}
    (inside : ∀ u ∈ units, u < s.slots.size) (v : UnitId) :
    ((setOwner id units s).slot v).owner = if v ∈ units then some id else (s.slot v).owner := by
  unfold setOwner
  induction units generalizing s with
  | nil => rfl
  | cons u units ih =>
    obtain ⟨first, rest⟩ := List.forall_mem_cons.1 inside
    rw [List.foldl_cons, ih fun w there => (Scheduler.size_modifySlot u _ s).symm ▸ rest w there,
      Scheduler.slot_modifySlot]
    by_cases owned : v ∈ units
    · rw [if_pos owned, if_pos (List.mem_cons_of_mem u owned)]
    · rw [if_neg owned]
      by_cases same : u = v
      · rw [if_pos ⟨same, first⟩, if_pos (List.mem_cons.2 (.inl same.symm))]
      · rw [if_neg fun both => same both.1, if_neg]
        rintro there
        exact (List.mem_cons.1 there).elim (fun now => same now.symm) owned

/-- The table holds the effective devices in order, and each unit the place of the latest of them that
declared it. -/
structure Sound (asked : List (Device ω)) (r : Registry ω) (s : Scheduler σ ω) : Prop where
  table : r.devices.toList = (effective asked).reverse
  inside : ∀ d ∈ effective asked, ∀ u ∈ d.units, u < s.slots.size
  owned : ∀ u id, (s.slot u).owner = some id → id < r.devices.size
  latest : ∀ u, r.deviceOf? u s = (effective asked).find? fun d => u ∈ d.units

theorem Sound.place_unique (sound : Sound asked r s) {j : Nat} (first : r.devices[i]? = some d)
    (second : r.devices[j]? = some e) (same : CaseVariant d.name e.name) : i = j := by
  have distinct : r.devices.toList.Pairwise fun d e => ¬CaseVariant e.name d.name := by
    rw [sound.table, List.pairwise_reverse]
    exact pairwise_effective asked
  rw [List.pairwise_iff_getElem] at distinct
  rw [← Array.getElem?_toList] at first second
  obtain ⟨firstIn, rfl⟩ := List.getElem?_eq_some_iff.1 first
  obtain ⟨secondIn, rfl⟩ := List.getElem?_eq_some_iff.1 second
  rcases Nat.lt_trichotomy i j with before | rfl | after
  · exact absurd same.symm (distinct i j firstIn secondIn before)
  · rfl
  · exact absurd same (distinct j i secondIn firstIn after)

theorem Sound.findId?_eq_some_iff (sound : Sound asked r s) {name : String} :
    r.findId? name = some i ↔ ∃ d, r.devices[i]? = some d ∧ CaseVariant d.name name := by
  refine ⟨of_findId?, ?_⟩
  rintro ⟨d, there, same⟩
  cases found : r.findId? name with
  | none =>
    have member := Array.mem_toList_iff.2 (Array.mem_of_getElem? there)
    exact absurd same (findId?_eq_none_iff.1 found d member)
  | some j =>
    obtain ⟨e, place, named⟩ := of_findId? found
    rw [sound.place_unique there place (same.trans named.symm)]

theorem Sound.effective_of_taken (sound : Sound asked r s) (found : r.findId? d.name = some i) :
    effective (d :: asked) = effective asked := by
  obtain ⟨e, there, same⟩ := of_findId? found
  have member := Array.mem_toList_iff.2 (Array.mem_of_getElem? there)
  rw [sound.table, List.mem_reverse] at member
  rw [effective, if_pos ⟨e, member, same⟩]

theorem Sound.effective_of_new (sound : Sound asked r s) (free : r.findId? d.name = none) :
    effective (d :: asked) = d :: effective asked := by
  rw [effective, if_neg]
  rintro ⟨e, there, same⟩
  have member : e ∈ r.devices.toList := by
    rw [sound.table]
    exact List.mem_reverse.2 there
  exact findId?_eq_none_iff.1 free e member same

theorem Sound.of_owners {t : Scheduler σ ω} (sound : Sound asked r s)
    (labelled : t.Labelled (fun u => (s.slot u).owner) s.slots.size) : Sound asked r t where
  table := sound.table
  inside d there u listed := Nat.lt_of_lt_of_le (sound.inside d there u listed) labelled.count
  owned u id there := sound.owned u id ((labelled.owner u).symm.trans there)
  latest u := by
    rw [← sound.latest u, deviceOf?, deviceOf?, labelled.owner u]

theorem Sound.register (sound : Sound asked r s) (units : ∀ u ∈ d.units, u < s.slots.size) :
    Sound (d :: asked) (r.register d s).2.1 (r.register d s).2.2 := by
  cases found : r.findId? d.name with
  | some i =>
    rw [register_of_taken found]
    have same := sound.effective_of_taken found
    exact ⟨same ▸ sound.table, same ▸ sound.inside, sound.owned, same ▸ sound.latest⟩
  | none =>
    rw [register_of_new found]
    have new := sound.effective_of_new found
    have owner := owner_setOwner (σ := σ) r.devices.size units
    have size := (relabelled_setOwner (σ := σ) r.devices.size d.units s).size
    refine ⟨?_, fun e there u listed => ?_, fun u id there => ?_, fun u => ?_⟩
    · rw [new, List.reverse_cons, ← sound.table]
      exact Array.toList_push
    · rw [new] at there
      show u < (setOwner r.devices.size d.units s).slots.size
      rw [size]
      rcases List.mem_cons.1 there with rfl | earlier
      · exact units u listed
      · exact sound.inside e earlier u listed
    · replace there : ((setOwner r.devices.size d.units s).slot u).owner = some id := there
      rw [owner] at there
      show id < (r.devices.push d).size
      rw [Array.size_push]
      split at there
      · cases there
        exact Nat.lt_succ_self _
      · exact Nat.lt_succ_of_lt (sound.owned u id there)
    · rw [new, List.find?_cons]
      show (((setOwner r.devices.size d.units s).slot u).owner.bind fun id => (r.devices.push d)[id]?) = _
      rw [owner]
      by_cases listed : u ∈ d.units
      · rw [if_pos listed, Option.bind_some, Array.getElem?_push_size]
        simp only [listed, decide_true]
      · simp only [listed, decide_false, if_false]
        rw [← sound.latest u, deviceOf?]
        cases owned : (s.slot u).owner with
        | none => rfl
        | some id =>
          have inside := sound.owned u id owned
          show (r.devices.push d)[id]? = r.devices[id]?
          rw [Array.getElem?_push, if_neg (Nat.ne_of_lt inside)]

variable [MediaStore σ] {r₀ r' : Registry ω} {s₀ s' : Scheduler σ ω} {more : List (Device ω)}

/-- By induction on what happens: a device stays in its place. -/
theorem Enrolls.grows (enrolls : Enrolls r s more r' s') (there : r.devices[i]? = some e) :
    r'.devices[i]? = some e := by
  induction enrolls with
  | start => exact there
  | register d _ _ ih => exact getElem?_register ih d _
  | run _ _ ih => exact ih

/-- By induction on what happens, from an empty registry over units without owners. -/
theorem Enrolls.sound (unowned : ∀ u, (s₀.slot u).owner = none) (enrolls : Enrolls .empty s₀ asked r s) :
    Sound asked r s := by
  induction enrolls with
  | start =>
    refine ⟨rfl, nofun, fun u id there => ?_, fun u => ?_⟩
    · rw [unowned] at there
      cases there
    · rw [deviceOf?, unowned]
      rfl
  | register d _ units ih => exact ih.register units
  | @run _ _ s _ p pops _ _ ended ih =>
    have before : s.Labelled (fun u => (s.slot u).owner) s.slots.size := ⟨fun _ => rfl, Nat.le_refl _⟩
    exact ih.of_owners (Scheduler.labelled_run p pops s before _ _ ended)

end

end Registry

/-- Devices are registered one after the other with an empty registry over units without owners, whatever
programs are run in between. The table holds those whose names were new, in order. No two of them have the same
name in any case, a name is found at the one place whose device has it, and a place that registration gives holds
a device of that name from then on. A device whose name is taken is given the place of the one there, and neither
the table nor any owner changes. A unit belongs to the latest device in the table that declared it. -/
theorem registry_agrees_with_owners [MediaStore σ] {s₀ s : Scheduler σ ω} {asked : List (Device ω)}
    {r : Registry ω} (unowned : ∀ u, (s₀.slot u).owner = none)
    (enrolls : Registry.Enrolls .empty s₀ asked r s) :
    r.devices.toList = (Registry.effective asked).reverse ∧
    (∀ (i j : Nat) (d e : Device ω), r.devices[i]? = some d → r.devices[j]? = some e →
      CaseVariant d.name e.name → i = j) ∧
    (∀ (name : String) (i : Nat), r.findId? name = some i ↔
      (∃ d, r.devices[i]? = some d ∧ CaseVariant d.name name) ∧
        ∀ j e, r.devices[j]? = some e → CaseVariant e.name name → j = i) ∧
    (∀ d : Device ω, ∃ e, (r.register d s).2.1.devices[(r.register d s).1]? = some e ∧
      CaseVariant e.name d.name ∧
      ∀ more r' s', Registry.Enrolls (r.register d s).2.1 (r.register d s).2.2 more r' s' →
        r'.devices[(r.register d s).1]? = some e) ∧
    (∀ (d e : Device ω) (i : Nat), r.devices[i]? = some e → CaseVariant e.name d.name →
      (r.register d s).1 = i ∧ (r.register d s).2.1 = r ∧
        ∀ u, ((r.register d s).2.2.slot u).owner = (s.slot u).owner) ∧
    ∀ u, r.deviceOf? u s = (Registry.effective asked).find? fun d => u ∈ d.units := by
  have sound := enrolls.sound unowned
  refine ⟨sound.table, fun i j d e first second => sound.place_unique first second, fun name i => ?_,
    fun d => ?_, fun d e i there same => ?_, sound.latest⟩
  · rw [sound.findId?_eq_some_iff]
    refine ⟨fun found => ⟨found, fun j e there same => ?_⟩, And.left⟩
    obtain ⟨d, place, named⟩ := found
    exact sound.place_unique there place (same.trans named.symm)
  · have given : ∃ e, (r.register d s).2.1.devices[(r.register d s).1]? = some e ∧
        CaseVariant e.name d.name := by
      cases found : r.findId? d.name with
      | some i =>
        rw [Registry.register_of_taken found]
        exact Registry.of_findId? found
      | none =>
        rw [Registry.register_of_new found]
        exact ⟨d, Array.getElem?_push_size, caseVariant_iff.2 rfl⟩
    obtain ⟨e, there, same⟩ := given
    exact ⟨e, there, same, fun more r' s' later => later.grows there⟩
  · have found : r.findId? d.name = some i := sound.findId?_eq_some_iff.2 ⟨e, there, same⟩
    rw [Registry.register_of_taken found]
    exact ⟨rfl, rfl, fun u => rfl⟩

/-- Three units, and three devices that share them. The second device has the name of the first one in another
case and is ignored. The third one takes over the units that it shares with the first one. -/
theorem shared_unit_goes_to_latest :
    ∃ (r : Registry Unit) (s₀ s : Scheduler MemoryImages Unit) (dk twin tt : Device Unit),
      twin.name = "dK" ∧ dk.units = [0, 1] ∧ twin.units = [1, 2] ∧ tt.units = [1] ∧
      Registry.Enrolls .empty s₀ [tt, twin, dk] r s ∧ r.devices.toList = [dk, tt] ∧
      r.findId? "dk" = some 0 ∧ (r.register twin s).1 = 0 ∧ r.deviceOf? 0 s = some dk ∧ r.deviceOf? 1 s = some tt ∧
      r.deviceOf? 2 s = none := by
  let dk : Device Unit := { name := "DK", units := [0, 1] }
  let twin : Device Unit := { name := "dK", units := [1, 2] }
  let tt : Device Unit := { name := "TT", units := [1] }
  let bare : Scheduler MemoryImages Unit := .start 100 1 () .empty (.empty none)
  let added := ((bare.perform (.addUnit { name := "A" })).2.perform (.addUnit { name := "B" })).2
  let s₀ := (added.perform (.addUnit { name := "C" })).2
  have unowned : ∀ u, (s₀.slot u).owner = none := by
    intro u
    rw [Scheduler.owner_perform, Scheduler.owner_perform, Scheduler.owner_perform,
      Scheduler.slot_of_size_le (Nat.zero_le u)]
    rfl
  have first : Registry.Enrolls .empty s₀ [dk] (Registry.empty.register dk s₀).2.1
      (Registry.empty.register dk s₀).2.2 := .register dk .start (by decide)
  have second := first.register twin (by decide)
  have third := second.register tt (by decide)
  obtain ⟨table, unique, lookup, -, taken, owner⟩ := registry_agrees_with_owners unowned third
  have kept : Registry.effective [tt, twin, dk] = [tt, dk] := by
    have apart : ¬CaseVariant "DK" "TT" := by decide
    have same : CaseVariant "DK" "dK" := by decide
    simp [Registry.effective, tt, twin, dk, apart, same]
  rw [kept] at table owner
  have place : (tt :: [dk]).reverse[0]? = some dk := rfl
  rw [← table, Array.getElem?_toList] at place
  refine ⟨_, s₀, _, dk, twin, tt, rfl, rfl, rfl, rfl, third, table, ?_, ?_, owner 0, owner 1, owner 2⟩
  · refine (lookup "dk" 0).2 ⟨⟨dk, place, by decide⟩, fun j e there same => ?_⟩
    exact unique j 0 e dk there place (same.trans (by decide))
  · exact (taken twin dk 0 place (by decide)).1

end Peripheral
