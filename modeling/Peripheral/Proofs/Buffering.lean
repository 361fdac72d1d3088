import Mathlib.Control.Monad.Basic
import Peripheral.Storage.MemoryImages
import Peripheral.Storage.Transfer

/-!
# A buffer cannot be told from the medium

A buffered unit reads and writes a copy of its medium and puts the copy back when it is detached. The
copy is as long as the unit, the image need not be: it may be shorter, so that writes extend it, or
longer, so that it keeps a tail that no request reaches.

* `Endpoint.use` : attach a unit, carry out requests on it, and detach it;
* `Copied` : a copy in memory beside the image that the same requests went to directly
  (`Copied.of_image`, `Copied.overwrite`, `Copied.written_back`);
* `Endpoint.of_span`, `inside_of_span` : the requests that pass the check of their span lie inside the unit;
* `Paired` : a buffered unit and an unbuffered one in the middle of being used (`Paired.attach`,
  `Paired.readSectors`, `Paired.writeSectors`, `Paired.transfers`, `Paired.detach`);
* `buffering_is_invisible` : **a buffered unit answers requests as an unbuffered one does, and
  leaves the same images behind**.
-/

namespace Peripheral

theorem Bytes.ext_getD {a b : Bytes} (size : a.size = b.size)
    (at_each : ∀ i < a.size, a.getD i 0 = b.getD i 0) : a = b := by
  refine Array.ext size fun i inA inB => ?_
  have same := at_each i inA
  rwa [Array.getD_eq_getD_getElem?, Array.getD_eq_getD_getElem?, Array.getElem?_eq_getElem inA,
    Array.getElem?_eq_getElem inB] at same

theorem Bytes.getD_extract (data : Bytes) (first last i : Nat) :
    (data.extract first last).getD i 0 = if first + i < last then data.getD (first + i) 0 else 0 := by
  simp only [Array.getD_eq_getD_getElem?, Array.getElem?_extract]
  split
  · rw [if_pos (by omega)]
  · split
    · rw [Array.getElem?_eq_none (by omega)]
    · rfl

theorem Bytes.allocatable_mono {less more : Nat} (h : less ≤ more)
    (held : Bytes.allocatable more = true) : Bytes.allocatable less = true := by
  simp only [Bytes.allocatable, decide_eq_true_eq] at held ⊢
  omega

/-! ## Using a unit -/

/-- What came of a unit that was attached, used and detached. -/
structure Usage (σ : Type) where
  attached : Result
  /-- The status and the data of each request. -/
  answers : List (Result × Bytes)
  detached : Result
  media : σ

namespace Endpoint

variable {σ : Type} [MediaStore σ]

def withBuffering (buffered : Bool) (e : Endpoint) : Endpoint :=
  { e with can := { e.can with buffered } }

def transfers (sectorSize : UInt64) :
    List Request → Endpoint → σ → List (Result × Bytes) × Endpoint × σ
  | [], e, store => ([], e, store)
  | request :: rest, e, store =>
    let (outcome, e, store) := e.transfer sectorSize request store
    let (answers, e, store) := transfers sectorSize rest e store
    ((outcome.status, outcome.data) :: answers, e, store)

def use (name : String) (sectorSize : UInt64) (requests : List Request) (e : Endpoint)
    (store : σ) : Usage σ :=
  let (attached, e, store, _) := e.attach name store
  let (answers, e, store) := e.transfers sectorSize requests store
  let (detached, _, store, _) := e.detach store
  ⟨attached, answers, detached, store⟩

end Endpoint

/-! ## The copy and the image -/

/-- A copy in memory of what was the `original` image, beside the `image` that the writes to the copy
went to directly. -/
structure Copied (capacity : Nat) (original : Bytes) (b : Buffer) (dirty : Bool) (image : Bytes) :
    Prop where
  size : b.data.size = capacity
  mark : b.highWater ≤ capacity
  grown : image.size = max original.size b.highWater
  /-- Inside the unit they hold the same bytes. -/
  inside : ∀ i < capacity, b.data.getD i 0 = image.getD i 0
  /-- From the high-water mark on nothing was written. -/
  beyond : ∀ i, b.highWater ≤ i → image.getD i 0 = original.getD i 0
  clean : dirty = false → image = original

namespace Copied

variable {capacity offset : Nat} {original image data : Bytes} {b : Buffer} {dirty : Bool}

theorem of_image (capacity : Nat) (image : Bytes) :
    let data := image.extract 0 capacity
    Copied capacity image ⟨Bytes.padTo capacity data, data.size⟩ false image where
  size := by
    simp only [Bytes.size_padTo, Array.size_extract]
    omega
  mark := by
    simp only [Array.size_extract]
    omega
  grown := by
    simp only [Array.size_extract]
    omega
  inside i inside := by
    rw [Bytes.getD_padTo, Bytes.getD_extract, Nat.zero_add, if_pos inside]
  beyond _ _ := rfl
  clean _ := rfl

theorem overwrite (h : Copied capacity original b dirty image)
    (fits : offset + data.size ≤ capacity) :
    Copied capacity original
      ⟨b.data.overwrite offset data, max b.highWater (offset + data.size)⟩ true
      (image.overwrite offset data) where
  size := by
    rw [Bytes.size_overwrite, h.size]
    omega
  mark := by
    have := h.mark
    simp only
    omega
  grown := by
    rw [Bytes.size_overwrite, h.grown]
    simp only
    omega
  inside i inside := by
    rw [Bytes.getD_overwrite, Bytes.getD_overwrite, h.inside i inside]
  beyond i reached := by
    simp only at reached
    rw [Bytes.getD_overwrite, if_neg (by omega)]
    exact h.beyond i (by omega)
  clean written := by simp at written

/-- A read inside the unit gives the same bytes, however many of them the image has. -/
theorem padTo_extract (h : Copied capacity original b dirty image) {count : Nat}
    (fits : offset + count ≤ capacity) :
    Bytes.padTo count (b.data.extract offset (offset + count)) =
      Bytes.padTo count (image.extract offset (offset + count)) := by
  refine Bytes.ext_getD ?_ fun i _ => ?_
  · simp only [Bytes.size_padTo, Array.size_extract]
    omega
  · rw [Bytes.getD_padTo, Bytes.getD_padTo, Bytes.getD_extract, Bytes.getD_extract]
    split
    · exact h.inside _ (by omega)
    · rfl

/-- Putting the bytes below the mark back makes the original the image that was written directly. -/
theorem written_back (h : Copied capacity original b dirty image) :
    original.overwrite 0 (b.data.extract 0 b.highWater) = image := by
  have part : (b.data.extract 0 b.highWater).size = b.highWater := by
    rw [Array.size_extract, h.size]
    have := h.mark
    omega
  refine Bytes.ext_getD ?_ fun i _ => ?_
  · rw [Bytes.size_overwrite, part, h.grown, Nat.zero_add]
  · rw [Bytes.getD_overwrite, part]
    split
    · rename_i below
      have := h.mark
      rw [Nat.sub_zero, Bytes.getD_extract, Nat.zero_add, if_pos (by omega), h.inside i (by omega)]
    · exact (h.beyond i (by omega)).symm

theorem of_mark_zero (h : Copied capacity original b dirty image) (zero : b.highWater = 0) :
    image = original := by
  refine Bytes.ext_getD ?_ fun i _ => h.beyond i (by omega)
  rw [h.grown, zero]
  omega

end Copied

/-! ## Requests inside a unit -/

/-- A request passes the check of its span with the offset of its first sector, and lies inside the capacity
if there is one. -/
theorem Endpoint.of_span {e : Endpoint} {sectorSize lba offset : UInt64} {bytes : Nat}
    (ok : e.span sectorSize lba bytes = .ok offset) :
    sectorSize ≠ 0 ∧ offset.toNat = lba.toNat * sectorSize.toNat ∧
      (e.capacity ≠ 0 → offset.toNat + bytes ≤ e.capacity.toNat) := by
  have words : Nat.pow 2 64 = UInt64.size := rfl
  unfold Endpoint.span at ok
  dsimp only at ok
  split at ok
  · cases ok
  rename_i counted
  split at ok
  · cases ok
  split at ok
  · cases ok
  split at ok
  · cases ok
  rename_i inside
  cases ok
  rw [UInt64.toNat_ofNat_of_lt' (by omega)]
  exact ⟨counted, rfl, fun sized => Nat.le_of_not_lt fun past => inside ⟨sized, past⟩⟩

theorem Endpoint.inside_of_span {e : Endpoint} {sectorSize lba offset : UInt64} {bytes : Nat}
    (sized : e.capacity ≠ 0) (ok : e.span sectorSize lba bytes = .ok offset) :
    offset.toNat + bytes ≤ e.capacity.toNat :=
  (of_span ok).2.2 sized

/-! ## The two units -/

namespace Endpoint

variable {σ : Type} [MediaStore σ] {e : Endpoint} {medium : Handle} {offset : UInt64} {data : Bytes}

def copying (e : Endpoint) (medium : Handle) (b : Buffer) (dirty : Bool) : Endpoint :=
  { e.withBuffering true with attachment := some ⟨medium, some b, dirty⟩ }

def bare (e : Endpoint) (medium : Handle) : Endpoint :=
  { e.withBuffering false with attachment := some ⟨medium, none, false⟩ }

/-- What keeps a write to an attached unit from being tried. -/
def refusal (offset : UInt64) (size : Nat) (e : Endpoint) : Option Status :=
  let stop := offset.toNat + size
  if e.can.readOnly then some .readOnly
  else if Nat.pow 2 64 ≤ stop then some (.nonExistentAddress offset)
  else if e.capacity ≠ 0 ∧ e.capacity.toNat < stop then
    some (.nonExistentAddress (UInt64.ofNat (stop - 1)))
  else none

theorem write_copying (offset : UInt64) (data : Bytes) {b : Buffer} {dirty : Bool}
    (sized : e.capacity ≠ 0) (whole : b.data.size = e.capacity.toNat) (store : σ) :
    (e.copying medium b dirty).write offset data store =
      match e.refusal offset data.size with
      | some status => (.error status, e.copying medium b dirty, store)
      | none =>
        (.ok (), e.copying medium
          ⟨b.data.overwrite offset.toNat data, max b.highWater (offset.toNat + data.size)⟩ true,
          store) := by
  simp only [write, refusal, copying, withBuffering, sized, ne_eq, not_false_eq_true, true_and]
  by_cases locked : e.can.readOnly = true
  · simp only [locked, if_true]
  by_cases long : Nat.pow 2 64 ≤ offset.toNat + data.size
  · simp only [locked, Bool.false_eq_true, long, if_true, if_false]
  by_cases outside : e.capacity.toNat < offset.toNat + data.size
  · simp only [locked, Bool.false_eq_true, long, outside, if_true, if_false]
  · have inside : offset.toNat + data.size ≤ b.data.size := by omega
    simp only [locked, Bool.false_eq_true, long, outside, inside, if_true, if_false]

theorem write_bare (offset : UInt64) (data : Bytes) (sized : e.capacity ≠ 0) (store : σ) :
    (e.bare medium).write offset data store =
      match e.refusal offset data.size with
      | some status => (.error status, e.bare medium, store)
      | none =>
        ((MediaStore.write medium offset data store).1, e.bare medium,
          (MediaStore.write medium offset data store).2) := by
  simp only [write, refusal, bare, withBuffering, sized, ne_eq, not_false_eq_true, true_and]
  by_cases locked : e.can.readOnly = true
  · simp only [locked, if_true]
  by_cases long : Nat.pow 2 64 ≤ offset.toNat + data.size
  · simp only [locked, Bool.false_eq_true, long, if_true, if_false]
  by_cases outside : e.capacity.toNat < offset.toNat + data.size
  · simp only [locked, Bool.false_eq_true, long, outside, if_true, if_false]
  · simp only [locked, Bool.false_eq_true, long, outside, if_false]

theorem of_refusal_none {size : Nat} (sized : e.capacity ≠ 0)
    (tried : e.refusal offset size = none) :
    e.can.readOnly = false ∧ offset.toNat + size ≤ e.capacity.toNat := by
  simp only [refusal, sized, ne_eq, not_false_eq_true, true_and] at tried
  split at tried
  · cases tried
  rename_i writable
  split at tried
  · cases tried
  split at tried
  · cases tried
  exact ⟨Bool.eq_false_iff.mpr writable, by omega⟩

end Endpoint

/-- A buffered unit and an unbuffered one in the middle of being used. The images of the buffered one
are still those that both were attached to. -/
inductive Paired (e : Endpoint) (medium : Handle) (images : MemoryImages) :
    Endpoint × MemoryImages → Endpoint × MemoryImages → Prop where
  | intro {original image : Bytes} {b : Buffer} {dirty : Bool} {direct : MemoryImages}
      (stored : images.image? medium.name = some original)
      (copied : Copied e.capacity.toNat original b dirty image)
      (untouched : e.can.readOnly = true → dirty = false)
      (written : direct.image? medium.name = some image)
      (others : ∀ other, medium.name ≠ other → direct.image? other = images.image? other) :
      Paired e medium images (e.copying medium b dirty, images) (e.bare medium, direct)

/-! ## Writing and reading images -/

namespace MemoryImages

variable {medium : Handle} {offset : UInt64} {data image : Bytes} {s : MemoryImages}

theorem read_of_image (there : s.image? medium.name = some image) (offset : UInt64)
    (count : Nat) :
    MediaStore.read medium offset count s =
      (.ok (image.extract offset.toNat (offset.toNat + count)), s) := by
  simp [MediaStore.read, MemoryImages.read, behind, there, Except.map]

theorem write_of_image (there : s.image? medium.name = some image)
    (held : Bytes.allocatable (offset.toNat + data.size) = true) :
    ∃ s', MediaStore.write medium offset data s = (.ok (), s') ∧
      ∀ other, s'.image? other =
        if medium.name = other then some (image.overwrite offset.toNat data) else s.image? other := by
  have counted : ¬ Nat.pow 2 64 ≤ offset.toNat + data.size := by
    simp only [Bytes.allocatable, decide_eq_true_eq] at held
    have : Nat.pow 2 50 < Nat.pow 2 64 := by decide
    omega
  refine ⟨⟨s.images.set medium.name (image.overwrite offset.toNat data),
    s.writes.set medium.name (s.writeCount medium.name + 1)⟩, ?_,
    fun other => Named.find?_set medium.name other _ s.images⟩
  simp only [MediaStore.write, MemoryImages.write, behind, there, held]
  rw [if_neg counted, if_neg (by simp)]

theorem load_of_image {e : Endpoint} (sized : e.capacity ≠ 0)
    (there : s.image? medium.name = some image) :
    e.load medium s =
      if Bytes.allocatable e.capacity.toNat then
        let data := image.extract 0 e.capacity.toNat
        (.ok ⟨Bytes.padTo e.capacity.toNat data, data.size⟩, s, [.buffering e.name])
      else (.error .noMemory, s, []) := by
  simp only [Endpoint.load, Endpoint.bufferSize, sized, if_false, read_of_image there, Except.map,
    UInt64.toNat_zero, Nat.zero_add]

end MemoryImages

/-! ## The same use of both units -/

namespace Paired

variable {e : Endpoint} {medium : Handle} {images : MemoryImages}
  {copied direct : Endpoint × MemoryImages}

theorem write (h : Paired e medium images copied direct) (sized : e.capacity ≠ 0)
    (held : Bytes.allocatable e.capacity.toNat = true) (offset : UInt64) (data : Bytes) :
    (copied.1.write offset data copied.2).1 = (direct.1.write offset data direct.2).1 ∧
      Paired e medium images (copied.1.write offset data copied.2).2
        (direct.1.write offset data direct.2).2 := by
  cases h with
  | @intro original image b dirty direct stored copied untouched written others =>
    rw [Endpoint.write_copying offset data sized copied.size,
      Endpoint.write_bare offset data sized]
    cases tried : e.refusal offset data.size with
    | some status => exact ⟨rfl, .intro stored copied untouched written others⟩
    | none =>
      obtain ⟨writable, inside⟩ := Endpoint.of_refusal_none sized tried
      obtain ⟨after, wrote, images_after⟩ :=
        MemoryImages.write_of_image written (Bytes.allocatable_mono inside held)
      rw [wrote]
      refine ⟨rfl, .intro stored (copied.overwrite inside) (by simp [writable]) ?_ ?_⟩
      · rw [images_after, if_pos rfl]
      · intro other different
        rw [images_after, if_neg different]
        exact others other different

theorem read (h : Paired e medium images copied direct) (sized : e.capacity ≠ 0)
    {offset : UInt64} {count : Nat} (inside : offset.toNat + count ≤ e.capacity.toNat) :
    (copied.1.read offset count copied.2).1.map Reading.data =
        (direct.1.read offset count direct.2).1.map Reading.data ∧
      (copied.1.read offset count copied.2).2 = copied.2 ∧
      (direct.1.read offset count direct.2).2 = direct.2 := by
  cases h with
  | @intro original image b dirty direct stored copied untouched written others =>
    simp only [Endpoint.read, Endpoint.copying, Endpoint.bare, Endpoint.withBuffering, copied.size,
      MemoryImages.read_of_image written, sized, ne_eq, not_false_eq_true, true_and]
    by_cases short : offset.toNat < e.capacity.toNat
    · rw [if_pos short, if_neg (by rw [UInt64.le_iff_toNat_le]; omega)]
      exact ⟨congrArg Except.ok (copied.padTo_extract inside), rfl, rfl⟩
    · rw [if_neg short, if_pos (by rw [UInt64.le_iff_toNat_le]; omega)]
      exact ⟨rfl, rfl, rfl⟩

theorem span_eq (h : Paired e medium images copied direct) (sectorSize lba : UInt64)
    (bytes : Nat) :
    copied.1.span sectorSize lba bytes = e.span sectorSize lba bytes ∧
      direct.1.span sectorSize lba bytes = e.span sectorSize lba bytes := by
  cases h
  exact ⟨rfl, rfl⟩

theorem readSectors (h : Paired e medium images copied direct) (sized : e.capacity ≠ 0)
    (sectorSize lba : UInt64) (sectors : UInt32) :
    let one := copied.1.readSectors sectorSize lba sectors copied.2
    let other := direct.1.readSectors sectorSize lba sectors direct.2
    one.1.status = other.1.status ∧ one.1.data = other.1.data ∧
      one.2 = copied.2 ∧ other.2 = direct.2 := by
  obtain ⟨span_copied, span_direct⟩ := h.span_eq sectorSize lba (sectorSize.toNat * sectors.toNat)
  simp only [Endpoint.readSectors, span_copied, span_direct]
  split
  · exact ⟨rfl, rfl, rfl, rfl⟩
  cases spanned : e.span sectorSize lba (sectorSize.toNat * sectors.toNat) with
  | error status => exact ⟨rfl, rfl, rfl, rfl⟩
  | ok offset =>
    simp only
    split
    · exact ⟨rfl, rfl, rfl, rfl⟩
    obtain ⟨same, kept, kept'⟩ := h.read sized (Endpoint.inside_of_span sized spanned)
    rcases one : copied.1.read offset _ copied.2 with ⟨answer, store⟩
    rcases other : direct.1.read offset _ direct.2 with ⟨answer', store'⟩
    rw [one] at same kept
    rw [other] at same kept'
    cases answer <;> cases answer' <;> simp_all [Except.map]

theorem writeSectors (h : Paired e medium images copied direct) (sized : e.capacity ≠ 0)
    (held : Bytes.allocatable e.capacity.toNat = true) (sectorSize lba : UInt64) (data : Bytes) :
    let one := copied.1.writeSectors sectorSize lba data copied.2
    let other := direct.1.writeSectors sectorSize lba data direct.2
    one.1.status = other.1.status ∧ one.1.data = other.1.data ∧
      Paired e medium images one.2 other.2 := by
  obtain ⟨span_copied, span_direct⟩ := h.span_eq sectorSize lba data.size
  simp only [Endpoint.writeSectors, span_copied, span_direct]
  split
  · exact ⟨rfl, rfl, h⟩
  cases spanned : e.span sectorSize lba data.size with
  | error status => exact ⟨rfl, rfl, h⟩
  | ok offset =>
    obtain ⟨same, after⟩ := h.write sized held offset data
    rcases one : copied.1.write offset data copied.2 with ⟨answer, copied'⟩
    rcases other : direct.1.write offset data direct.2 with ⟨answer', direct'⟩
    rw [one, other] at same after
    obtain rfl : answer = answer' := same
    cases answer with
    | error status =>
      simp only [one, other]
      exact ⟨trivial, trivial, after⟩
    | ok =>
      simp only [one, other]
      exact ⟨trivial, trivial, after⟩

theorem transfers (h : Paired e medium images copied direct) (sized : e.capacity ≠ 0)
    (held : Bytes.allocatable e.capacity.toNat = true) (sectorSize : UInt64)
    (requests : List Request) :
    (copied.1.transfers sectorSize requests copied.2).1 =
        (direct.1.transfers sectorSize requests direct.2).1 ∧
      Paired e medium images (copied.1.transfers sectorSize requests copied.2).2
        (direct.1.transfers sectorSize requests direct.2).2 := by
  induction requests generalizing copied direct with
  | nil => exact ⟨rfl, h⟩
  | cons request rest ih =>
    cases request with
    | read lba sectors =>
      obtain ⟨status, data, kept, kept'⟩ := h.readSectors sized sectorSize lba sectors
      obtain ⟨answers, after⟩ := ih h
      simp only [Endpoint.transfers, Endpoint.transfer, kept, kept', status, data, answers]
      exact ⟨trivial, after⟩
    | write lba bytes =>
      obtain ⟨status, data, written⟩ := h.writeSectors sized held sectorSize lba bytes
      obtain ⟨answers, after⟩ := ih written
      simp only [Endpoint.transfers, Endpoint.transfer, status, data, answers]
      exact ⟨trivial, after⟩

theorem detach (h : Paired e medium images copied direct) (attachable : e.can.attachable = true)
    (held : Bytes.allocatable e.capacity.toNat = true) :
    (copied.1.detach copied.2).1 = .ok () ∧ (direct.1.detach direct.2).1 = .ok () ∧
      ∀ name, MemoryImages.image? name (copied.1.detach copied.2).2.2.1 =
        MemoryImages.image? name (direct.1.detach direct.2).2.2.1 := by
  cases h with
  | @intro original image b dirty direct stored copied untouched written others =>
    have bare : (e.bare medium).detach direct =
        (.ok (), { e.withBuffering false with attachment := none, position := 0 }, direct, []) := by
      simp [Endpoint.detach, Endpoint.bare, Endpoint.withBuffering, attachable]
    have same_images {s : MemoryImages} (here : s.image? medium.name = some image)
        (there : ∀ other, medium.name ≠ other → s.image? other = images.image? other) (name) :
        s.image? name = direct.image? name := by
      by_cases this : medium.name = name
      · rw [← this, here, written]
      · rw [there name this, others name this]
    rw [bare]
    simp only [Endpoint.detach, Endpoint.copying, Endpoint.withBuffering, attachable, Bool.not_true,
      Bool.false_eq_true, if_false]
    by_cases changed : (dirty && !e.can.readOnly && 0 < b.highWater) = true
    · have room : Bytes.allocatable ((0 : UInt64).toNat + (b.data.extract 0 b.highWater).size) = true :=
        Bytes.allocatable_mono (by have := copied.mark; simp; omega) held
      obtain ⟨after, wrote, images_after⟩ := MemoryImages.write_of_image stored room
      have back : Endpoint.writeBack medium b images = (.ok (), after) := by
        simp only [Endpoint.writeBack, wrote]
        rfl
      simp only [changed, back, if_true]
      refine ⟨trivial, trivial, same_images ?_ fun other different => ?_⟩
      · rw [images_after, if_pos rfl]
        exact congrArg some copied.written_back
      · rw [images_after, if_neg different]
    · have same : image = original := by
        simp only [Bool.and_eq_true, not_and, decide_eq_true_eq, Bool.not_eq_true'] at changed
        cases clean : dirty with
        | false => exact copied.clean clean
        | true =>
          have writable : e.can.readOnly = false := by
            cases locked : e.can.readOnly with
            | false => rfl
            | true => exact absurd (untouched locked) (by simp [clean])
          exact copied.of_mark_zero (by have := changed ⟨clean, writable⟩; omega)
      simp only [changed, Bool.false_eq_true, if_false]
      exact ⟨trivial, trivial, same_images (same ▸ stored) fun _ _ => rfl⟩

/-- Attaching a unit to an image that it can copy makes the two units a pair. -/
theorem attach {name : String} (sized : e.capacity ≠ 0)
    (ok : ((e.withBuffering true).attach name images).1 = .ok ()) :
    e.can.attachable = true ∧ Bytes.allocatable e.capacity.toNat = true ∧
      ((e.withBuffering false).attach name images).1 = .ok () ∧
      Paired { e with position := 0 } ⟨name, e.can.readOnly⟩ images
        (((e.withBuffering true).attach name images).2.1,
          ((e.withBuffering true).attach name images).2.2.1)
        (((e.withBuffering false).attach name images).2.1,
          ((e.withBuffering false).attach name images).2.2.1) := by
  cases attachable : e.can.attachable with
  | false => simp [Endpoint.attach, Endpoint.withBuffering, attachable] at ok
  | true =>
  cases attached : e.attachment with
  | some a =>
    simp [Endpoint.attach, Endpoint.withBuffering, Endpoint.isAttached, attachable, attached] at ok
  | none =>
  simp only [Endpoint.attach, Endpoint.withBuffering, Endpoint.isAttached, attachable, attached,
    MediaStore.openMedium, MemoryImages.openMedium, Option.isSome_none, Bool.not_true,
    Bool.false_eq_true, if_false, if_true] at ok ⊢
  cases stored : images.image? name with
  | none => simp [stored] at ok
  | some original =>
    have opened : images.image? (Handle.mk name e.can.readOnly).name = some original := stored
    have loaded := MemoryImages.load_of_image (e := { e.withBuffering true with attachment := none })
      sized opened
    simp only [stored] at ok ⊢
    simp only [Endpoint.withBuffering, attachable] at loaded
    rw [loaded] at ok ⊢
    cases held : Bytes.allocatable e.capacity.toNat with
    | false => simp [held] at ok
    | true =>
      simp only [if_true]
      have begun := Paired.intro (e := { e with position := 0 }) opened (.of_image _ original)
        (fun _ => rfl) opened fun _ _ => rfl
      simp only [Endpoint.copying, Endpoint.bare, Endpoint.withBuffering, attachable, attached] at begun
      exact ⟨trivial, trivial, trivial, begun⟩

end Paired

/-- Buffering is invisible: whatever an image holds and whatever requests are carried out, a unit that
works on a copy of the image gives the same status and the same data for each of them as one that
works on the image, both let it go without failure, and every image is the same afterwards. -/
theorem buffering_is_invisible (e : Endpoint) (images : MemoryImages) (name : String)
    (sectorSize : UInt64) (requests : List Request) (sized : e.capacity ≠ 0)
    (attached : ((e.withBuffering true).use name sectorSize requests images).attached = .ok ()) :
    let buffered := (e.withBuffering true).use name sectorSize requests images
    let direct := (e.withBuffering false).use name sectorSize requests images
    direct.attached = .ok () ∧
      buffered.answers = direct.answers ∧
      buffered.detached = .ok () ∧ direct.detached = .ok () ∧
      ∀ other, buffered.media.image? other = direct.media.image? other := by
  obtain ⟨attachable, held, attached', begun⟩ := Paired.attach sized attached
  obtain ⟨answers, after⟩ := begun.transfers sized held sectorSize requests
  obtain ⟨detached, detached', images_after⟩ := after.detach attachable held
  exact ⟨attached', answers, detached, detached', images_after⟩

/-- A drive of two sectors over an image of one, written past the end of the image and read again. -/
theorem buffered_drive_extends_short_image :
    let drive : Endpoint := { name := "DK0", can := { attachable := true }, capacity := 4 }
    let images := MemoryImages.empty.install "d.img" #[7, 7]
    let requests : List Request := [.read 1 1, .write 1 #[5, 6], .read 0 2, .write 2 #[1, 1]]
    let buffered := (drive.withBuffering true).use "d.img" 2 requests images
    let direct := (drive.withBuffering false).use "d.img" 2 requests images
    drive.capacity ≠ 0 ∧ buffered.attached = .ok () ∧ direct.attached = .ok () ∧
      buffered.answers = direct.answers ∧
      buffered.answers = [(.ok (), #[0, 0]), (.ok (), #[]), (.ok (), #[7, 7, 5, 6]),
        (.error (.nonExistentAddress 4), #[])] ∧
      buffered.media.image? "d.img" = some #[7, 7, 5, 6] ∧
      direct.media.image? "d.img" = some #[7, 7, 5, 6] := by
  intro drive images requests buffered direct
  have sized : drive.capacity ≠ 0 := by decide
  have attached : buffered.attached = .ok () := by decide +kernel
  obtain ⟨attached', answers, -, -, same⟩ :=
    buffering_is_invisible drive images "d.img" 2 requests sized attached
  have after : direct.media.image? "d.img" = some #[7, 7, 5, 6] := by decide +kernel
  exact ⟨sized, attached, attached', answers, by decide +kernel, (same _).trans after, after⟩

end Peripheral
