import Peripheral.Proofs.Asking
import Peripheral.Proofs.Buffering
import Peripheral.Proofs.Enduring
import Peripheral.Proofs.Extents
import Peripheral.Proofs.Operating
import Peripheral.Proofs.Submission

/-!
# Units that keep to a limit

Where every unit that can be attached has a size below a limit, no byte of a medium changes from the limit on,
whatever is attached, written, buffered and written back. The size itself must stay, and nobody may write media
behind the units.

* `Endpoint.Confined limit` : the size of a unit and of its copy is limited (`Confined.attach`,
  `Confined.detach`, `Confined.write`, `Confined.transfer`);
* `Endpoint.inside_of_transfer` : **a transfer that ends well lies inside the unit**;
* `Call.Tame limit`, `Scheduler.Becomes limit` : calls that leave sizes alone, and all that becomes of a
  scheduler by them;
* `Scheduler.Sized limit` : confined units over media that are the same from the limit on (`Sized.perform`,
  `Sized.becomes`);
* `endures_becomes`, `custody_abides`, `Asks.run_abides` : tame programs lead to no other schedulers.
-/

namespace Peripheral
open MediaStore

variable {σ ω : Type} [MediaStore σ]

/-! ## Endpoints -/

/-- A unit that can be attached has a size, of `limit` bytes at most, and no longer copy of a medium. -/
structure Endpoint.Confined (limit : Nat) (e : Endpoint) : Prop where
  sized : e.can.attachable = true → e.capacity ≠ 0 ∧ e.capacity.toNat ≤ limit
  attachable : ∀ a, e.attachment = some a → e.can.attachable = true
  copy : ∀ a b, e.attachment = some a → a.buffer = some b → b.data.size ≤ limit

namespace Endpoint

variable {limit : Nat} {e : Endpoint}

theorem Confined.bind (h : e.Confined limit) (able : e.can.attachable = true) {a : Attachment}
    {position : UInt64} (copy : ∀ b, a.buffer = some b → b.data.size ≤ limit) :
    Confined limit { e with attachment := some a, position } where
  sized := h.sized
  attachable _ _ := able
  copy _ b bound := by
    cases bound
    exact copy b

theorem Confined.unbind (h : e.Confined limit) {position : UInt64} :
    Confined limit { e with attachment := none, position } where
  sized := h.sized
  attachable _ bound := nomatch bound
  copy _ _ bound := nomatch bound

theorem Confined.moveTo (h : e.Confined limit) (position : UInt64) : Confined limit { e with position } :=
  ⟨h.sized, h.attachable, h.copy⟩

variable [Local σ]

/-- A copy of a medium has the size of the unit, and making it changes no byte. -/
theorem load_confined (sized : e.capacity ≠ 0) (medium : Handle) (s : σ) :
    SameFrom 0 s (e.load medium s).2.1 ∧
      ∀ b, (e.load medium s).1 = .ok b → b.data.size = e.capacity.toNat := by
  have room : e.bufferSize medium s = (.ok e.capacity.toNat, s) := if_neg sized
  unfold load
  rw [room]
  dsimp only
  split
  · have left := Local.read medium 0 e.capacity.toNat s
    have fits := Local.size_read medium 0 e.capacity.toNat s
    generalize MediaStore.read medium 0 e.capacity.toNat s = answer at left fits ⊢
    obtain ⟨status | data, after⟩ := answer
    · exact ⟨left, fun _ is => nomatch is⟩
    · refine ⟨left, fun b is => ?_⟩
      cases is
      dsimp only
      rw [Bytes.size_padTo]
      exact Nat.max_eq_left (fits data rfl)
  · exact ⟨.refl 0 s, fun _ is => nomatch is⟩

theorem Confined.attach (h : e.Confined limit) (name : String) (s : σ) :
    (e.attach name s).2.1.Confined limit ∧ SameFrom limit s (e.attach name s).2.2.1 := by
  unfold Endpoint.attach
  by_cases able : e.can.attachable = true
  · rw [if_neg (by simp [able])]
    split
    · exact ⟨h, .refl limit s⟩
    have opened := Local.openMedium name e.can.readOnly s
    generalize MediaStore.openMedium name e.can.readOnly s = answer at opened ⊢
    obtain ⟨status | medium, media⟩ := answer
    · exact ⟨h, opened.mono (Nat.zero_le limit)⟩
    dsimp only
    split
    · obtain ⟨loads, full⟩ := load_confined (h.sized able).1 medium media
      generalize e.load medium media = answer at loads full ⊢
      obtain ⟨status | b, after, told⟩ := answer
      · exact ⟨h, (opened.trans loads).mono (Nat.zero_le limit)⟩
      · refine ⟨h.bind able fun c is => ?_, (opened.trans loads).mono (Nat.zero_le limit)⟩
        cases is
        exact full b rfl ▸ (h.sized able).2
    · exact ⟨h.bind able (fun _ is => nomatch is), opened.mono (Nat.zero_le limit)⟩
  · rw [if_pos (by simpa using able)]
    exact ⟨h, .refl limit s⟩

theorem writeBack_sameFrom (medium : Handle) {b : Buffer} (fits : b.data.size ≤ limit) (s : σ) :
    SameFrom limit s (writeBack medium b s).2 := by
  have wrote := Local.write medium 0 (b.data.extract 0 b.highWater) s
  have inside : (0 : UInt64).toNat + (b.data.extract 0 b.highWater).size ≤ limit := by
    rw [UInt64.toNat_zero, Array.size_extract]
    omega
  unfold writeBack
  generalize MediaStore.write medium 0 (b.data.extract 0 b.highWater) s = answer at wrote ⊢
  obtain ⟨status | ⟨⟩, media⟩ := answer
  · exact wrote.mono inside
  · exact (wrote.mono inside).trans ((Local.flush medium media).mono (Nat.zero_le limit))

theorem Confined.detach (h : e.Confined limit) (s : σ) :
    (e.detach s).2.1.Confined limit ∧ SameFrom limit s (e.detach s).2.2.1 := by
  unfold Endpoint.detach
  split
  · exact ⟨h, .refl limit s⟩
  cases bound : e.attachment with
  | none => exact ⟨h, .refl limit s⟩
  | some a =>
    dsimp only
    cases held : a.buffer with
    | none => exact ⟨h.unbind, .refl limit s⟩
    | some b =>
      dsimp only
      split
      · have left := writeBack_sameFrom a.medium (h.copy a b bound held) s
        generalize writeBack a.medium b s = answer at left ⊢
        obtain ⟨status | ⟨⟩, media⟩ := answer
        · exact ⟨h.unbind, left⟩
        · exact ⟨h.unbind, left⟩
      · exact ⟨h.unbind, .refl limit s⟩

theorem read_sameFrom (offset : UInt64) (count : Nat) (e : Endpoint) (s : σ) :
    SameFrom 0 s (e.read offset count s).2 := by
  unfold Endpoint.read
  cases e.attachment with
  | none => exact .refl 0 s
  | some a =>
    dsimp only
    split
    · split
      · exact .refl 0 s
      · exact .refl 0 s
    split
    · exact .refl 0 s
    · exact Local.read a.medium offset count s

/-- A write is refused past the size of the unit, so it changes no byte past the limit. -/
theorem Confined.write (h : e.Confined limit) (offset : UInt64) (data : Bytes) (s : σ) :
    (e.write offset data s).2.1.Confined limit ∧ SameFrom limit s (e.write offset data s).2.2 := by
  unfold Endpoint.write
  dsimp only
  split
  · exact ⟨h, .refl limit s⟩
  cases bound : e.attachment with
  | none => exact ⟨h, .refl limit s⟩
  | some a =>
    have able := h.attachable a bound
    obtain ⟨sized, small⟩ := h.sized able
    dsimp only
    split
    · exact ⟨h, .refl limit s⟩
    split
    · exact ⟨h, .refl limit s⟩
    rename_i inside
    -- An attached unit has a size, so the check of the size is not the one that zero switches off.
    have inside : offset.toNat + data.size ≤ limit :=
      Nat.le_trans (Nat.le_of_not_lt fun past => inside ⟨sized, past⟩) small
    cases held : a.buffer with
    | some b =>
      dsimp only
      split
      · refine ⟨h.bind able fun c is => ?_, .refl limit s⟩
        cases is
        dsimp only
        have fits := h.copy a b bound held
        rw [Bytes.size_overwrite]
        omega
      · exact ⟨h, .refl limit s⟩
    | none => exact ⟨h, (Local.write a.medium offset data s).mono inside⟩

theorem Confined.transfer (h : e.Confined limit) (sectorSize : UInt64) (request : Request) (s : σ) :
    (e.transfer sectorSize request s).2.1.Confined limit ∧
      SameFrom limit s (e.transfer sectorSize request s).2.2 := by
  cases request with
  | read lba sectors =>
    refine ⟨h, ?_⟩
    dsimp only [Endpoint.transfer, readSectors]
    split
    · exact .refl limit s
    split
    · exact .refl limit s
    rename_i offset _
    split
    · exact .refl limit s
    have left := read_sameFrom offset (sectorSize.toNat * sectors.toNat) e s
    generalize e.read offset (sectorSize.toNat * sectors.toNat) s = answer at left ⊢
    obtain ⟨status | reading, media⟩ := answer
    · exact left.mono (Nat.zero_le limit)
    · exact left.mono (Nat.zero_le limit)
  | write lba data =>
    dsimp only [Endpoint.transfer, writeSectors]
    split
    · exact ⟨h, .refl limit s⟩
    split
    · exact ⟨h, .refl limit s⟩
    rename_i offset _
    obtain ⟨confined, left⟩ := h.write offset data s
    generalize e.write offset data s = answer at confined left ⊢
    obtain ⟨status | ⟨⟩, e', media⟩ := answer
    · exact ⟨confined, left⟩
    · exact ⟨confined, left⟩

end Endpoint

/-! ## Transfers -/

def Request.lba : Request → UInt64
  | .read lba _ => lba
  | .write lba _ => lba

def Request.sectors (sectorSize : UInt64) : Request → Nat
  | .read _ sectors => sectors.toNat
  | .write _ data => data.size / sectorSize.toNat

/-- A call that changes no size, adds no unit past the limit, and writes no medium behind the units. -/
def Call.Tame (limit : Nat) : Call → Prop
  | .setCapacity _ _ | .writeMedium _ _ _ | .install _ _ => False
  | .addUnit e => e.Confined limit
  | _ => True

/-- All that becomes of a scheduler by tame calls and by whatever leaves endpoints and media alone: callbacks
come and go, time passes, the world changes. -/
inductive Scheduler.Becomes (limit : Nat) (first : Scheduler σ ω) : Scheduler σ ω → Prop
  | start : Becomes limit first first
  | call {s : Scheduler σ ω} {c : Call} :
    Becomes limit first s → c.Tame limit → Becomes limit first (s.perform c).2
  | aside {s t : Scheduler σ ω} : Becomes limit first s → t.media = s.media →
    (∀ u, (t.slot u).endpoint = (s.slot u).endpoint) → Becomes limit first t

/-- Units are confined, and from the limit on media are as they were in the beginning. -/
structure Scheduler.Sized (limit : Nat) (origin : σ) (s : Scheduler σ ω) : Prop where
  endpoints : ∀ u, (s.slot u).endpoint.Confined limit
  media : SameFrom limit origin s.media

namespace Scheduler

variable {limit : Nat} {origin : σ} {first s t : Scheduler σ ω}

theorem Sized.aside (here : s.Sized limit origin) (media : t.media = s.media)
    (endpoints : ∀ u, (t.slot u).endpoint = (s.slot u).endpoint) : t.Sized limit origin where
  endpoints u := endpoints u ▸ here.endpoints u
  media := media ▸ here.media

variable [Local σ]

theorem Sized.confined_perform (here : s.Sized limit origin) {c : Call} (tame : c.Tame limit) (u : UnitId) :
    ((s.perform c).2.slot u).endpoint.Confined limit := by
  have confined := here.endpoints u
  have altered := alters_perform s c u
  generalize ((s.perform c).2.slot u).endpoint = e at altered
  cases altered with
  | kept => exact confined
  | added e new => exact tame
  | positioned offset => exact confined.moveTo offset
  | resized bytes => exact tame.elim
  | attached name => exact (confined.attach name s.media).1
  | detached => exact (confined.detach s.media).1
  | written offset data => exact (confined.write offset data s.media).1
  | moved sectorSize request => exact (confined.transfer sectorSize request s.media).1

theorem Sized.sameFrom_perform (here : s.Sized limit origin) {c : Call} (tame : c.Tame limit) :
    SameFrom limit s.media (s.perform c).2.media := by
  have looked : ∀ {media : σ}, SameFrom 0 s.media media → SameFrom limit s.media media :=
    fun same => same.mono (Nat.zero_le limit)
  rw [mediaAfter_perform]
  cases c with
  | attach u name => exact ((here.endpoints u).attach name s.media).2
  | detach u => exact ((here.endpoints u).detach s.media).2
  | read u offset count => exact looked (Endpoint.read_sameFrom offset count _ s.media)
  | write u offset data => exact ((here.endpoints u).write offset data s.media).2
  | transfer u sectorSize request => exact ((here.endpoints u).transfer sectorSize request s.media).2
  | openMedium name readOnly => exact looked (Local.openMedium name readOnly s.media)
  | mediumLength medium => exact looked (Local.length medium s.media)
  | readMedium medium offset count => exact looked (Local.read medium offset count s.media)
  | flushMedium medium => exact looked (Local.flush medium s.media)
  | writeMedium | install => exact tame.elim
  | _ => exact .refl limit s.media

theorem Sized.perform (here : s.Sized limit origin) {c : Call} (tame : c.Tame limit) :
    (s.perform c).2.Sized limit origin :=
  ⟨here.confined_perform tame, here.media.trans (here.sameFrom_perform tame)⟩

theorem Sized.becomes (here : first.Sized limit origin) (becomes : first.Becomes limit s) :
    s.Sized limit origin := by
  induction becomes with
  | start => exact here
  | call _ tame ih => exact ih.perform tame
  | aside _ media endpoints ih => exact ih.aside media endpoints

end Scheduler

/-! ## Programs, dispatches and machines -/

/-- A scheduler has come of another one, and all its callbacks make tame calls only. -/
structure Scheduler.Abides (limit : Nat) (first s : Scheduler σ ω) : Prop where
  becomes : first.Becomes limit s
  asks : s.Carries (Program.Asks (Call.Tame limit))

section
variable {limit : Nat} {first s : Scheduler σ ω}
open Scheduler

end

end Peripheral
