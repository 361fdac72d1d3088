import Peripheral.Proofs.Confinement

/-!
# Requests that fit their unit

A request is carried out just if it lies inside its unit, computed over the integers. The words that its
span is computed with, the two checks of the capacity and the two places that data is kept in come to
nothing else, and a request that is turned down leaves no trace.

* `Endpoint.Used` : whatever may become of a unit over images in memory, as long as its size stays while
  it is attached;
* `Endpoint.Backed` : the image of an attached unit is there, and a copy of it is as long as the unit
  (`Backed.attach`, `Backed.write`, `Used.backed`);
* `Request.Fits`, `Request.memory` : the requests that lie inside a unit, and the memory that they take;
* `Endpoint.Served`, `Endpoint.Written` : what a read gives, and what a write changes;
* `Backed.readSectors`, `Backed.writeSectors` : reads and writes of whole sectors;
* `transfer_ok_iff_fits` : **requests that fit are carried out, others are turned down without effect**.
-/

namespace Peripheral

/-! ## Units in use -/

/-- One collection of images has an image under every name that the other has one under. -/
def MemoryImages.Keeps (s t : MemoryImages) : Prop :=
  ∀ name, (s.image? name).isSome → (t.image? name).isSome

namespace Endpoint

variable {e : Endpoint} {images : MemoryImages}

/-- A unit and the images beside it, from a time when the unit was free. What it can do and where it
stands may be set at any time, its size only while it is free. Others may use the images too. -/
inductive Used : Endpoint → MemoryImages → Prop where
  | free (e : Endpoint) (images : MemoryImages) : e.attachment = none → Used e images
  | attach {e : Endpoint} {images : MemoryImages} (name : String) :
    Used e images → Used (e.attach name images).2.1 (e.attach name images).2.2.1
  | detach {e : Endpoint} {images : MemoryImages} :
    Used e images → Used (e.detach images).2.1 (e.detach images).2.2.1
  | read {e : Endpoint} {images : MemoryImages} (offset : UInt64) (count : Nat) :
    Used e images → Used e (e.read offset count images).2
  | write {e : Endpoint} {images : MemoryImages} (offset : UInt64) (data : Bytes) :
    Used e images → Used (e.write offset data images).2.1 (e.write offset data images).2.2
  | transfer {e : Endpoint} {images : MemoryImages} (sectorSize : UInt64) (request : Request) :
    Used e images →
    Used (e.transfer sectorSize request images).2.1 (e.transfer sectorSize request images).2.2
  | set {e : Endpoint} {images : MemoryImages} (can : Capabilities) (position : UInt64) :
    Used e images → Used { e with can, position } images
  | others {e : Endpoint} {images later : MemoryImages} :
    Used e images → images.Keeps later → Used e later

theorem load_images (e : Endpoint) (medium : Handle) (images : MemoryImages) :
    (e.load medium images).2.1 = images := by
  unfold load bufferSize
  split
  · rename_i sized
    split at sized
    · exact (congrArg Prod.snd sized).symm
    · cases sized
  · rename_i sized
    obtain rfl : images = _ := by
      split at sized
      · exact congrArg Prod.snd sized
      · exact congrArg Prod.snd sized
    split
    · rfl
    · rfl

theorem read_images (offset : UInt64) (count : Nat) (e : Endpoint)
    (images : MemoryImages) : (e.read offset count images).2 = images := by
  unfold Endpoint.read
  split
  · rfl
  split
  · split <;> rfl
  split <;> rfl

/-- An attached unit has its image, and a copy of it is as long as the unit. -/
inductive Backed (e : Endpoint) (images : MemoryImages) : Prop where
  | free : e.attachment = none → Backed e images
  | copy {medium : Handle} {b : Buffer} {dirty : Bool} :
    e.attachment = some ⟨medium, some b, dirty⟩ → (images.image? medium.name).isSome →
    (e.capacity ≠ 0 → b.data.size = e.capacity.toNat) → Backed e images
  | direct {medium : Handle} {dirty : Bool} :
    e.attachment = some ⟨medium, none, dirty⟩ → (images.image? medium.name).isSome → Backed e images

namespace Backed

/-- A unit stays backed where it keeps its attachment and its size, and images stay there. -/
theorem mono {f : Endpoint} {later : MemoryImages} (h : e.Backed images) (bound : f.attachment = e.attachment)
    (sized : f.capacity = e.capacity) (keeps : images.Keeps later) : f.Backed later := by
  cases h with
  | free none => exact .free (bound.trans none)
  | copy held stored whole => exact .copy (bound.trans held) (keeps _ stored) (sized ▸ whole)
  | direct held stored => exact .direct (bound.trans held) (keeps _ stored)

theorem attach (h : e.Backed images) (name : String) :
    (e.attach name images).2.1.Backed (e.attach name images).2.2.1 := by
  unfold Endpoint.attach
  split
  · exact h
  split
  · exact h
  simp only [MediaStore.openMedium, MemoryImages.openMedium]
  cases stored : images.image? name with
  | none => exact h
  | some image =>
    have there : (images.image? name).isSome := by rw [stored, Option.isSome_some]
    dsimp only
    split
    · have kept := load_images e ⟨name, e.can.readOnly⟩ images
      have whole := fun sized : e.capacity ≠ 0 =>
        (load_confined sized ⟨name, e.can.readOnly⟩ images).2
      generalize e.load ⟨name, e.can.readOnly⟩ images = answer at kept whole ⊢
      obtain ⟨status | b, later, told⟩ := answer
      · exact h.mono rfl rfl (kept ▸ fun _ there => there)
      · obtain rfl : later = images := kept
        exact .copy rfl there fun sized => whole sized b rfl
    · exact .direct rfl there

theorem detach (h : e.Backed images) : (e.detach images).2.1.Backed (e.detach images).2.2.1 := by
  unfold Endpoint.detach
  split
  · exact h
  split
  · exact h
  dsimp only
  split
  · exact .free rfl
  split
  · split
    · exact .free rfl
    · exact .free rfl
  · exact .free rfl

end Backed

/-! ## What a write changes -/

end Endpoint

/-- Bytes after `data` was put at an offset: a gap before it holds zeros, as bytes past the end always read,
and nothing else is different. -/
structure Bytes.Patched (offset : Nat) (data old new : Bytes) : Prop where
  size : new.size = max old.size (offset + data.size)
  inside : ∀ i < data.size, new.getD (offset + i) 0 = data.getD i 0
  outside : ∀ i, i < offset ∨ offset + data.size ≤ i → new.getD i 0 = old.getD i 0

theorem Bytes.patched_overwrite (offset : Nat) (data old : Bytes) :
    Patched offset data old (old.overwrite offset data) where
  size := size_overwrite old offset data
  inside i inside := by
    rw [getD_overwrite, if_pos (by omega), Nat.add_sub_cancel_left]
  outside i outside := by
    rw [getD_overwrite, if_neg (by omega)]

/-- A write either fails and changes nothing, or patches the image of its name and no other. -/
theorem MemoryImages.write_cases {medium : Handle} {s : MemoryImages} {image : Bytes}
    (there : s.image? medium.name = some image) (offset : UInt64) (data : Bytes) :
    let after := MediaStore.write medium offset data s
    (∃ status, after = (.error status, s)) ∨ after.1 = .ok () ∧ ∀ other, after.2.image? other =
      if medium.name = other then some (image.overwrite offset.toNat data) else s.image? other := by
  simp only [MediaStore.write, MemoryImages.write, behind, there]
  split
  · exact .inl ⟨_, rfl⟩
  split
  · exact .inl ⟨_, rfl⟩
  · exact .inr ⟨rfl, fun other => Named.find?_set medium.name other _ s.images⟩

namespace Endpoint

variable {e : Endpoint} {images : MemoryImages}

/-- A write that was carried out: in the copy of the medium, which is marked and keeps its size, or in the
image itself. -/
inductive Written (offset : Nat) (data : Bytes) :
    Endpoint × MemoryImages → Endpoint × MemoryImages → Prop where
  | copy {e : Endpoint} {images : MemoryImages} {medium : Handle} {b : Buffer} {dirty : Bool} {new : Bytes} :
    e.attachment = some ⟨medium, some b, dirty⟩ → offset + data.size ≤ b.data.size →
    Bytes.Patched offset data b.data new →
    Written offset data (e, images)
      ({ e with attachment := some ⟨medium, some ⟨new, max b.highWater (offset + data.size)⟩, true⟩ }, images)
  | direct {e : Endpoint} {images later : MemoryImages} {medium : Handle} {dirty : Bool} {old new : Bytes} :
    e.attachment = some ⟨medium, none, dirty⟩ → images.image? medium.name = some old →
    later.image? medium.name = some new → Bytes.Patched offset data old new →
    (∀ other, medium.name ≠ other → later.image? other = images.image? other) →
    Written offset data (e, images) (e, later)

theorem Written.backed {offset : Nat} {data : Bytes} {after : Endpoint × MemoryImages}
    (written : Written offset data (e, images) after) (h : e.Backed images) : after.1.Backed after.2 := by
  cases written with
  | copy bound inside patched =>
    cases h with
    | free none => cases none.symm.trans bound
    | direct held stored => cases held.symm.trans bound
    | copy held stored whole =>
      obtain ⟨rfl, rfl, rfl⟩ := by simpa using held.symm.trans bound
      refine .copy rfl stored fun sized => ?_
      rw [patched.size, ← whole sized]
      omega
  | direct bound stored stored' patched others =>
    exact .direct bound (by rw [stored', Option.isSome_some])

theorem Backed.write_cases (h : e.Backed images) (offset : UInt64) (data : Bytes) :
    let after := e.write offset data images
    (∃ status, after = (.error status, e, images)) ∨
      after.1 = .ok () ∧ Written offset.toNat data (e, images) after.2 := by
  unfold Endpoint.write
  dsimp only
  split
  · exact .inl ⟨_, rfl⟩
  cases h with
  | free none =>
    rw [none]
    exact .inl ⟨_, rfl⟩
  | copy bound stored whole =>
    rw [bound]
    dsimp only
    split
    · exact .inl ⟨_, rfl⟩
    split
    · exact .inl ⟨_, rfl⟩
    split
    · rename_i inside
      exact .inr ⟨rfl, .copy bound inside (Bytes.patched_overwrite _ _ _)⟩
    · exact .inl ⟨_, rfl⟩
  | direct bound stored =>
    obtain ⟨image, there⟩ := Option.isSome_iff_exists.1 stored
    rw [bound]
    dsimp only
    split
    · exact .inl ⟨_, rfl⟩
    split
    · exact .inl ⟨_, rfl⟩
    rcases MemoryImages.write_cases there offset data with ⟨status, failed⟩ | ⟨done, later⟩
    · rw [failed]
      exact .inl ⟨status, rfl⟩
    · refine .inr ⟨done, .direct bound there ?_ (Bytes.patched_overwrite _ _ _) fun other different => ?_⟩
      · exact (later _).trans (if_pos rfl)
      · exact (later _).trans (if_neg different)

theorem Backed.write (h : e.Backed images) (offset : UInt64) (data : Bytes) :
    (e.write offset data images).2.1.Backed (e.write offset data images).2.2 := by
  rcases h.write_cases offset data with ⟨status, failed⟩ | ⟨-, written⟩
  · rw [failed]
    exact h
  · exact written.backed h

theorem Backed.write_ok_iff (h : e.Backed images) (sized : e.capacity ≠ 0) (offset : UInt64) (data : Bytes)
    (room : e.buffer? = none → Bytes.allocatable (offset.toNat + data.size) = true) :
    (e.write offset data images).1 = .ok () ↔
      e.isAttached = true ∧ e.can.readOnly = false ∧ offset.toNat + data.size ≤ e.capacity.toNat := by
  have small : e.capacity.toNat < Nat.pow 2 64 := e.capacity.toNat_lt
  unfold Endpoint.write
  dsimp only
  split
  · rename_i locked
    simp [locked]
  rename_i unlocked
  rw [Bool.not_eq_true] at unlocked
  cases attached : e.attachment with
  | none => simp [isAttached, attached]
  | some a =>
    have bound : e.isAttached = true := by rw [isAttached, attached, Option.isSome_some]
    dsimp only
    by_cases inside : offset.toNat + data.size ≤ e.capacity.toNat
    · rw [if_neg (by omega), if_neg fun past => Nat.not_lt.2 inside past.2]
      refine iff_of_true ?_ ⟨bound, unlocked, inside⟩
      cases h with
      | free none => cases none.symm.trans attached
      | copy held stored whole =>
        obtain rfl := Option.some.inj (held.symm.trans attached)
        dsimp only
        rw [if_pos (whole sized ▸ inside)]
      | direct held stored =>
        obtain rfl := Option.some.inj (held.symm.trans attached)
        obtain ⟨image, there⟩ := Option.isSome_iff_exists.1 stored
        obtain ⟨later, wrote, -⟩ := MemoryImages.write_of_image there (room (by rw [buffer?, attached]; rfl))
        dsimp only
        rw [wrote]
    · refine iff_of_false ?_ fun right => inside right.2.2
      split
      · rintro ⟨⟩
      · rw [if_pos ⟨sized, Nat.lt_of_not_le inside⟩]
        rintro ⟨⟩

/-! ## What a read gives -/

/-- The bytes that a unit works on: its copy of the medium, or the image itself. -/
def bytes? (e : Endpoint) (images : MemoryImages) : Option Bytes :=
  e.attachment.bind fun a =>
    match a.buffer with
    | some b => some b.data
    | none => images.image? a.medium.name

theorem Backed.read_eq (h : e.Backed images) (sized : e.capacity ≠ 0) (attached : e.isAttached = true)
    (offset : UInt64) (count : Nat) :
    ∃ held, e.bytes? images = some held ∧ (e.read offset count images).1 =
      if e.capacity ≤ offset then .error (.nonExistentAddress offset)
      else
        let data := held.extract offset.toNat (offset.toNat + count)
        .ok ⟨data.size, Bytes.padTo count data⟩ := by
  unfold Endpoint.read bytes?
  cases h with
  | free none => simp [isAttached, none] at attached
  | copy bound stored whole =>
    refine ⟨_, by rw [bound]; rfl, ?_⟩
    rw [bound]
    dsimp only
    rw [whole sized]
    by_cases past : e.capacity ≤ offset
    · rw [if_pos past, if_neg (Nat.not_lt.2 (UInt64.le_iff_toNat_le.1 past))]
    · rw [if_neg past, if_pos (UInt64.lt_iff_toNat_lt.1 (UInt64.not_le.1 past))]
  | direct bound stored =>
    obtain ⟨image, there⟩ := Option.isSome_iff_exists.1 stored
    refine ⟨image, by rw [bound]; exact there, ?_⟩
    rw [bound]
    dsimp only
    by_cases past : e.capacity ≤ offset
    · rw [if_pos past, if_pos ⟨sized, past⟩]
    · rw [if_neg past, if_neg fun refused => past refused.2, MemoryImages.read_of_image there]
      rfl

/-- A read of whole sectors that was carried out: as many bytes as were asked for, the ones that are held
and zeros behind them, and the number of sectors that are held whole. -/
structure Served (sectorSize lba : UInt64) (sectors : UInt32) (held : Bytes) (outcome : Outcome) : Prop where
  size : outcome.data.size = sectors.toNat * sectorSize.toNat
  bytes : ∀ i < sectors.toNat * sectorSize.toNat,
    outcome.data.getD i 0 = held.getD (lba.toNat * sectorSize.toNat + i) 0
  count : outcome.sectors.toNat =
    min (sectors.toNat * sectorSize.toNat) (held.size - lba.toNat * sectorSize.toNat) / sectorSize.toNat
  most : outcome.sectors ≤ sectors

/-! ## Requests -/

theorem span_of_inside {sectorSize lba : UInt64} {bytes : Nat} (counted : sectorSize ≠ 0)
    (inside : lba.toNat * sectorSize.toNat + bytes ≤ e.capacity.toNat) :
    e.span sectorSize lba bytes = .ok (UInt64.ofNat (lba.toNat * sectorSize.toNat)) := by
  have small : e.capacity.toNat < Nat.pow 2 64 := e.capacity.toNat_lt
  unfold span
  dsimp only
  rw [if_neg counted, if_neg (by omega), if_neg (by omega), if_neg fun past => Nat.not_lt.2 inside past.2]

end Endpoint

/-- The request lies inside the unit, computed over the integers, and the unit is in a state to carry it
out. -/
def Request.Fits (sectorSize : UInt64) (e : Endpoint) : Request → Prop
  | .read lba sectors =>
    e.isAttached = true ∧ 0 < sectorSize.toNat ∧ lba.toNat * sectorSize.toNat < e.capacity.toNat ∧
      lba.toNat * sectorSize.toNat + sectors.toNat * sectorSize.toNat ≤ e.capacity.toNat
  | .write lba data =>
    e.isAttached = true ∧ e.can.readOnly = false ∧ 0 < sectorSize.toNat ∧ sectorSize.toNat ∣ data.size ∧
      lba.toNat * sectorSize.toNat + data.size ≤ e.capacity.toNat

instance (sectorSize : UInt64) (e : Endpoint) (request : Request) : Decidable (request.Fits sectorSize e) :=
  match request with
  | .read .. => inferInstanceAs (Decidable (_ ∧ _))
  | .write .. => inferInstanceAs (Decidable (_ ∧ _))

/-- Memory that a request asks for: what is read, or the image up to the end of what is written. A copy in
memory is there already. -/
def Request.memory (sectorSize : UInt64) (e : Endpoint) : Request → Nat
  | .read _ sectors => sectors.toNat * sectorSize.toNat
  | .write lba data => if e.buffer?.isSome then 0 else lba.toNat * sectorSize.toNat + data.size

def Request.Done (sectorSize : UInt64) (e : Endpoint) (images : MemoryImages) (outcome : Outcome)
    (after : Endpoint × MemoryImages) : Request → Prop
  | .read lba sectors =>
    (∃ held, e.bytes? images = some held ∧ Endpoint.Served sectorSize lba sectors held outcome) ∧
      after = (e, images)
  | .write lba data => Endpoint.Written (lba.toNat * sectorSize.toNat) data (e, images) after

namespace Endpoint

variable {e : Endpoint} {images : MemoryImages} {sectorSize lba : UInt64}

theorem sectorSize_pos : 0 < sectorSize.toNat ↔ sectorSize ≠ 0 := by
  rw [Nat.pos_iff_ne_zero, ne_eq, ne_eq, ← UInt64.toNat_inj]
  rfl

theorem served_of_held {sectors : UInt32} {held : Bytes} {offset : UInt64}
    (first : offset.toNat = lba.toNat * sectorSize.toNat) :
    let bytes := sectorSize.toNat * sectors.toNat
    let data := held.extract offset.toNat (offset.toNat + bytes)
    Served sectorSize lba sectors held
      ⟨.ok (), Bytes.padTo bytes data, UInt32.ofNat (data.size / sectorSize.toNat)⟩ := by
  intro bytes data
  have asked : bytes = sectors.toNat * sectorSize.toNat := Nat.mul_comm _ _
  have length : data.size =
      min (sectors.toNat * sectorSize.toNat) (held.size - lba.toNat * sectorSize.toNat) := by
    rw [Array.size_extract, first, asked]
    omega
  have most : data.size / sectorSize.toNat ≤ sectors.toNat :=
    Nat.div_le_of_le_mul (by rw [length, Nat.mul_comm sectorSize.toNat]; exact Nat.min_le_left _ _)
  have counts : (UInt32.ofNat (data.size / sectorSize.toNat)).toNat = data.size / sectorSize.toNat :=
    UInt32.toNat_ofNat_of_lt' (Nat.lt_of_le_of_lt most sectors.toNat_lt)
  refine ⟨?_, fun i inside => ?_, ?_, ?_⟩
  · rw [Bytes.size_padTo, length, asked]
    omega
  · rw [Bytes.getD_padTo, Bytes.getD_extract, first, if_pos (by omega)]
  · rw [counts, length]
  · rw [UInt32.le_iff_toNat_le, counts]
    exact most

theorem readSectors_images (sectorSize lba : UInt64) (sectors : UInt32) (e : Endpoint) (images : MemoryImages) :
    (e.readSectors sectorSize lba sectors images).2 = images := by
  unfold Endpoint.readSectors
  dsimp only
  split
  · rfl
  split
  · rfl
  rename_i offset _
  split
  · rfl
  have kept := read_images offset (sectorSize.toNat * sectors.toNat) e images
  generalize e.read offset (sectorSize.toNat * sectors.toNat) images = answer at kept ⊢
  obtain ⟨status | reading, later⟩ := answer
  · exact kept
  · exact kept

theorem Backed.readSectors (h : e.Backed images) (sized : e.capacity ≠ 0) (sectors : UInt32)
    (room : Bytes.allocatable (sectors.toNat * sectorSize.toNat) = true) :
    let after := e.readSectors sectorSize lba sectors images
    ((Request.read lba sectors).Fits sectorSize e ∧ after.1.status = .ok () ∧
        ∃ held, e.bytes? images = some held ∧ Served sectorSize lba sectors held after.1) ∨
      (¬(Request.read lba sectors).Fits sectorSize e ∧ (∃ status, after.1.status = .error status) ∧
        after.1.sectors = 0) := by
  have asked : sectorSize.toNat * sectors.toNat = sectors.toNat * sectorSize.toNat := Nat.mul_comm _ _
  have below : ¬Nat.pow 2 64 ≤ sectorSize.toNat * sectors.toNat := by
    have : Nat.pow 2 50 < Nat.pow 2 64 := by decide
    have := of_decide_eq_true room
    omega
  unfold Endpoint.readSectors
  dsimp only
  rw [if_neg below]
  cases spanned : e.span sectorSize lba (sectorSize.toNat * sectors.toNat) with
  | error status =>
    refine .inr ⟨fun ⟨_, counted, _, inside⟩ => ?_, ⟨status, rfl⟩, rfl⟩
    rw [span_of_inside (sectorSize_pos.1 counted) (asked ▸ inside)] at spanned
    cases spanned
  | ok offset =>
    obtain ⟨nonzero, first, inside⟩ := of_span spanned
    dsimp only
    rw [if_neg (by rw [asked, room]; exact Bool.false_ne_true)]
    cases attached : e.isAttached with
    | false =>
      have free : e.attachment = none := by simpa [isAttached] using attached
      have refused : e.read offset (sectorSize.toNat * sectors.toNat) images =
          (.error .notAttached, images) := by rw [Endpoint.read, free]
      rw [refused]
      exact .inr ⟨fun fits => Bool.false_ne_true (attached.symm.trans fits.1), ⟨_, rfl⟩, rfl⟩
    | true =>
      obtain ⟨held, holds, reads⟩ := h.read_eq sized attached offset (sectorSize.toNat * sectors.toNat)
      generalize e.read offset (sectorSize.toNat * sectors.toNat) images = answer at reads ⊢
      obtain ⟨answer, later⟩ := answer
      by_cases past : e.capacity ≤ offset
      · obtain rfl := reads.trans (if_pos past)
        refine .inr ⟨fun ⟨_, _, begins, _⟩ => ?_, ⟨_, rfl⟩, rfl⟩
        exact absurd (UInt64.le_iff_toNat_le.1 past) (by omega)
      · obtain rfl := reads.trans (if_neg past)
        have begins : lba.toNat * sectorSize.toNat < e.capacity.toNat := by
          rw [← first]
          exact UInt64.lt_iff_toNat_lt.1 (UInt64.not_le.1 past)
        have fits : (Request.read lba sectors).Fits sectorSize e :=
          ⟨attached, sectorSize_pos.2 nonzero, begins, first ▸ asked ▸ inside sized⟩
        exact .inl ⟨fits, rfl, held, holds, served_of_held first⟩

theorem Backed.writeSectors (h : e.Backed images) (sized : e.capacity ≠ 0) {data : Bytes}
    (room : e.buffer? = none → Bytes.allocatable (lba.toNat * sectorSize.toNat + data.size) = true) :
    let after := e.writeSectors sectorSize lba data images
    ((Request.write lba data).Fits sectorSize e ∧ after.1.status = .ok () ∧
        Written (lba.toNat * sectorSize.toNat) data (e, images) after.2) ∨
      (¬(Request.write lba data).Fits sectorSize e ∧ (∃ status, after.1.status = .error status) ∧
        after.1.sectors = 0 ∧ after.2 = (e, images)) := by
  unfold Endpoint.writeSectors
  dsimp only
  split
  · rename_i ragged
    refine .inr ⟨fun ⟨_, _, counted, whole, _⟩ => ?_, ⟨_, rfl⟩, rfl, rfl⟩
    exact ragged.elim (fun zero => sectorSize_pos.1 counted zero)
      fun rest => rest (Nat.mod_eq_zero_of_dvd whole)
  rename_i whole
  obtain ⟨nonzero, whole⟩ := not_or.1 whole
  have whole : sectorSize.toNat ∣ data.size := Nat.dvd_of_mod_eq_zero (not_not.1 whole)
  cases spanned : e.span sectorSize lba data.size with
  | error status =>
    refine .inr ⟨fun ⟨_, _, _, _, inside⟩ => ?_, ⟨status, rfl⟩, rfl, rfl⟩
    rw [span_of_inside nonzero inside] at spanned
    cases spanned
  | ok offset =>
    obtain ⟨-, first, -⟩ := of_span spanned
    have accepted := h.write_ok_iff sized offset data (first ▸ room)
    have written := h.write_cases offset data
    rw [first] at accepted written
    dsimp only
    generalize e.write offset data images = answer at accepted written ⊢
    rcases written with ⟨status, rfl⟩ | ⟨done, written⟩
    · refine .inr ⟨fun ⟨attached, unlocked, _, _, inside⟩ => ?_, ⟨status, rfl⟩, rfl, rfl⟩
      cases accepted.2 ⟨attached, unlocked, inside⟩
    · obtain ⟨answer, e', later⟩ := answer
      obtain rfl : answer = .ok () := done
      obtain ⟨attached, unlocked, inside⟩ := accepted.1 rfl
      exact .inl ⟨⟨attached, unlocked, sectorSize_pos.2 nonzero, whole, inside⟩, rfl, written⟩

theorem Backed.transfer (h : e.Backed images) (sectorSize : UInt64) (request : Request) :
    (e.transfer sectorSize request images).2.1.Backed (e.transfer sectorSize request images).2.2 := by
  cases request with
  | read lba sectors =>
    show e.Backed (e.readSectors sectorSize lba sectors images).2
    rw [readSectors_images]
    exact h
  | write lba data =>
    dsimp only [Endpoint.transfer, Endpoint.writeSectors]
    split
    · exact h
    split
    · exact h
    rename_i offset _
    have after := h.write offset data
    generalize e.write offset data images = answer at after ⊢
    obtain ⟨status | ⟨⟩, e', later⟩ := answer
    · exact after
    · exact after

/-- However a unit is used, an attached one has its image, and its copy the size of the unit. -/
theorem Used.backed (used : e.Used images) : e.Backed images := by
  induction used with
  | free e images none => exact .free none
  | attach name _ ih => exact ih.attach name
  | detach _ ih => exact ih.detach
  | read offset count _ ih => exact ih.mono rfl rfl (read_images offset count _ _ ▸ fun _ there => there)
  | write offset data _ ih => exact ih.write offset data
  | transfer sectorSize request _ ih => exact ih.transfer sectorSize request
  | set can position _ ih => exact ih.mono rfl rfl fun _ there => there
  | others _ keeps ih => exact ih.mono rfl rfl keeps

end Endpoint

/-- Whatever became of a unit since it was free, a request is carried out just if it fits the unit: the
unit is attached and may be written if it has to be, the request is for whole sectors, and it lies inside the
capacity. A read that fits gives just the bytes that were asked for and changes nothing; a write that fits
changes the bytes it is for. Any other request moves no sector and leaves the unit, with its copy and the
marks of it, and all images as they were. -/
theorem transfer_ok_iff_fits (sectorSize : UInt64) (request : Request) {e : Endpoint} {images : MemoryImages}
    (used : e.Used images) (sized : e.capacity ≠ 0)
    (room : Bytes.allocatable (request.memory sectorSize e) = true) :
    let after := e.transfer sectorSize request images
    (after.1.status = .ok () ↔ request.Fits sectorSize e) ∧
      (after.1.status = .ok () → request.Done sectorSize e images after.1 after.2) ∧
      (after.1.status ≠ .ok () → after.1.sectors = 0 ∧ after.2 = (e, images)) := by
  intro after
  have carried : (request.Fits sectorSize e ∧ after.1.status = .ok () ∧
        request.Done sectorSize e images after.1 after.2) ∨
      (¬request.Fits sectorSize e ∧ (∃ status, after.1.status = .error status) ∧
        after.1.sectors = 0 ∧ after.2 = (e, images)) := by
    cases request with
    | read lba sectors =>
      have kept : (e.transfer sectorSize (.read lba sectors) images).2 = (e, images) :=
        congrArg (Prod.mk e) (Endpoint.readSectors_images sectorSize lba sectors e images)
      rcases used.backed.readSectors sized sectors room with ⟨fits, ok, served⟩ | ⟨unfit, failed, none⟩
      · exact .inl ⟨fits, ok, served, kept⟩
      · exact .inr ⟨unfit, failed, none, kept⟩
    | write lba data =>
      refine used.backed.writeSectors sized fun uncopied => ?_
      simpa [Request.memory, uncopied] using room
  rcases carried with ⟨fits, ok, done⟩ | ⟨unfit, ⟨status, failed⟩, none⟩
  · exact ⟨iff_of_true ok fits, fun _ => done, fun other => absurd ok other⟩
  · have failed : after.1.status ≠ .ok () := by
      rw [failed]
      exact nofun
    exact ⟨iff_of_false failed unfit, fun ok => absurd ok failed, fun _ => none⟩

/-- On a unit of two sectors, nothing can be written at the end, but not read from there; and a sector whose
offset would come to zero in a word of 64 bits is not the first one. -/
theorem empty_write_fits_at_end :
    let drive : Endpoint := { name := "DK0", can := { attachable := true, buffered := true }, capacity := 4 }
    let images := MemoryImages.empty.install "d.img" #[7]
    let unit : Endpoint := (drive.attach "d.img" images).2.1
    let carry (request : Request) := unit.transfer 2 request images
    unit.Used images ∧ unit.capacity ≠ 0 ∧
      (∀ request ∈ [Request.write 2 #[], .read 2 0, .write 0x8000000000000000 #[5, 5]],
        Bytes.allocatable (request.memory 2 unit) = true) ∧
      (carry (.write 2 #[])).1.status = .ok () ∧
      (carry (.read 2 0)).1.status ≠ .ok () ∧
      (carry (.write 0x8000000000000000 #[5, 5])).2 = (unit, images) := by
  intro drive images unit carry
  have used : unit.Used images := .attach "d.img" (.free drive images rfl)
  have sized : unit.capacity ≠ 0 := by decide +kernel
  have room : ∀ request ∈ [Request.write 2 #[], .read 2 0, .write 0x8000000000000000 #[5, 5]],
      Bytes.allocatable (request.memory 2 unit) = true := by decide +kernel
  have settled (request : Request) (h) := transfer_ok_iff_fits 2 request used sized (room request h)
  obtain ⟨ends, -, -⟩ := settled (.write 2 #[]) (by simp)
  obtain ⟨past, -, -⟩ := settled (.read 2 0) (by simp)
  obtain ⟨wraps, -, kept⟩ := settled (.write 0x8000000000000000 #[5, 5]) (by simp)
  refine ⟨used, sized, room, ends.2 (by decide +kernel), mt past.1 (by decide +kernel), ?_⟩
  exact (kept (mt wraps.1 (by decide +kernel))).2

end Peripheral
