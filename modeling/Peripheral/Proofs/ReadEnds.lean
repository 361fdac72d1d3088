import Peripheral.Proofs.Buffering

/-!
# Where reads end

A unit that works on a copy of its medium reads up to its capacity, however many bytes the image holds.
One that works on the medium reads up to the end of the image, also past its capacity. What both read of
the bytes that the unit and the image have in common is the same.

* `Endpoint.writes`, `Endpoint.readBack` : write to a unit; attach a unit, write to it, and read from it;
* `Reading.upTo` : a read that ends at a limit; two limits give the same just if they give the same
  count (`Reading.upTo_eq_iff`);
* `Paired.writes`, `Paired.read_upTo` : the same writes and the same read of both units;
* `reads_agree_iff` : **both units read the same just where the read ends at the same offset for both**.
-/

namespace Peripheral

/-! ## Writing to a unit and reading from it -/

/-- What came of a unit that was attached, written and read. -/
structure Readback (σ : Type) where
  attached : Result
  /-- The result of each write. -/
  written : List Result
  answer : Except Status Reading
  media : σ

namespace Endpoint

variable {σ : Type} [MediaStore σ]

def writes : List (UInt64 × Bytes) → Endpoint → σ → List Result × Endpoint × σ
  | [], e, store => ([], e, store)
  | (offset, data) :: rest, e, store =>
    let (result, e, store) := e.write offset data store
    let (results, e, store) := writes rest e store
    (result :: results, e, store)

def readBack (name : String) (pieces : List (UInt64 × Bytes)) (offset : UInt64) (count : Nat)
    (e : Endpoint) (store : σ) : Readback σ :=
  let (attached, e, store, _) := e.attach name store
  let (written, e, store) := e.writes pieces store
  let (answer, store) := e.read offset count store
  ⟨attached, written, answer, store⟩

end Endpoint

/-! ## Reads that end at a limit -/

/-- The bytes of an image from an offset up to a limit, filled up with zeros to `count`. -/
def Reading.upTo (limit offset count : Nat) (image : Bytes) : Reading :=
  ⟨min (offset + count) limit - offset,
    Bytes.padTo count (image.extract offset (min (offset + count) limit))⟩

/-- Reads of one image that end at two limits are the same if they count as many bytes. -/
theorem Reading.upTo_eq_iff {limit other offset count : Nat} {image : Bytes} :
    upTo limit offset count image = upTo other offset count image ↔
      min (offset + count) limit - offset = min (offset + count) other - offset := by
  constructor
  · exact congrArg Reading.count
  · intro same
    have piece : image.extract offset (min (offset + count) limit) =
        image.extract offset (min (offset + count) other) := by
      by_cases ends : min (offset + count) limit = min (offset + count) other
      · rw [ends]
      · rw [Array.extract_empty_of_stop_le_start (by omega),
          Array.extract_empty_of_stop_le_start (by omega)]
    unfold upTo
    rw [same, piece]

theorem Reading.upTo_size (offset count : Nat) (image : Bytes) :
    let data := image.extract offset (offset + count)
    (⟨data.size, Bytes.padTo count data⟩ : Reading) = upTo image.size offset count image := by
  have piece : image.extract offset (offset + count) =
      image.extract offset (min (offset + count) image.size) := by
    rcases Nat.le_total (offset + count) image.size with short | long
    · rw [Nat.min_eq_left short]
    · rw [Nat.min_eq_right long, Array.extract_eq_extract_right]
      omega
  unfold upTo
  simp only [Array.size_extract, ← piece]

theorem Copied.upTo {capacity offset count : Nat} {original image : Bytes} {b : Buffer} {dirty : Bool}
    (h : Copied capacity original b dirty image) :
    let data := b.data.extract offset (offset + count)
    (⟨data.size, Bytes.padTo count data⟩ : Reading) = Reading.upTo capacity offset count image := by
  have bytes : Bytes.padTo count (b.data.extract offset (offset + count)) =
      Bytes.padTo count (image.extract offset (min (offset + count) capacity)) := by
    refine Bytes.ext_getD ?_ fun i _ => ?_
    · simp only [Bytes.size_padTo, Array.size_extract]
      omega
    · rw [Bytes.getD_padTo, Bytes.getD_padTo, Bytes.getD_extract, Bytes.getD_extract]
      by_cases inside : offset + i < capacity
      · simp only [h.inside _ inside, Nat.lt_min, inside, and_true]
      · rw [if_neg (c := offset + i < min (offset + count) capacity) (by omega),
          Array.getD_eq_getD_getElem?, Array.getElem?_eq_none (by rw [h.size]; omega)]
        split <;> rfl
  unfold Reading.upTo
  simp only [Array.size_extract, h.size, bytes]

/-! ## The same writes and the same read -/

namespace Paired

variable {e : Endpoint} {medium : Handle} {images : MemoryImages}
  {copied direct : Endpoint × MemoryImages}

theorem writes (h : Paired e medium images copied direct) (sized : e.capacity ≠ 0)
    (held : Bytes.allocatable e.capacity.toNat = true) (pieces : List (UInt64 × Bytes)) :
    (copied.1.writes pieces copied.2).1 = (direct.1.writes pieces direct.2).1 ∧
      Paired e medium images (copied.1.writes pieces copied.2).2
        (direct.1.writes pieces direct.2).2 := by
  induction pieces generalizing copied direct with
  | nil => exact ⟨rfl, h⟩
  | cons piece rest ih =>
    obtain ⟨same, after⟩ := h.write sized held piece.1 piece.2
    obtain ⟨results, left⟩ := ih after
    exact ⟨congrArg₂ List.cons same results, left⟩

/-- From its capacity on neither unit can be read. Below, the one reads the image up to its capacity,
the other up to the end of the image. -/
theorem read_upTo (h : Paired e medium images copied direct) (sized : e.capacity ≠ 0)
    (offset : UInt64) (count : Nat) :
    ∃ image, direct.2.image? medium.name = some image ∧
      (direct.1.read offset count direct.2).2 = direct.2 ∧
      (e.capacity ≤ offset →
        (copied.1.read offset count copied.2).1 = .error (.nonExistentAddress offset) ∧
          (direct.1.read offset count direct.2).1 = .error (.nonExistentAddress offset)) ∧
      (offset < e.capacity →
        (copied.1.read offset count copied.2).1 =
            .ok (.upTo e.capacity.toNat offset.toNat count image) ∧
          (direct.1.read offset count direct.2).1 =
            .ok (.upTo image.size offset.toNat count image)) := by
  cases h with
  | @intro original image b dirty direct stored copied untouched written others =>
    refine ⟨image, written, ?_⟩
    simp only [Endpoint.read, Endpoint.copying, Endpoint.bare, Endpoint.withBuffering, copied.size,
      MemoryImages.read_of_image written, sized, ne_eq, not_false_eq_true, true_and]
    by_cases past : e.capacity ≤ offset
    · have outside : ¬offset.toNat < e.capacity.toNat := Nat.not_lt.2 (UInt64.le_iff_toNat_le.1 past)
      rw [if_pos past, if_neg outside]
      exact ⟨rfl, fun _ => ⟨rfl, rfl⟩, fun inside => absurd past (UInt64.not_le.2 inside)⟩
    · have inside : offset.toNat < e.capacity.toNat := UInt64.lt_iff_toNat_lt.1 (UInt64.not_le.1 past)
      rw [if_neg past, if_pos inside]
      refine ⟨rfl, fun outside => absurd outside past, fun _ => ⟨?_, ?_⟩⟩
      · exact congrArg Except.ok copied.upTo
      · exact congrArg Except.ok (Reading.upTo_size offset.toNat count image)

end Paired

/-- Whatever an image holds and whatever was written to a unit since it was attached, a unit that works
on a copy of the image and one that works on the image answer a read alike where it begins at the
capacity or later: both refuse it. Any other read they carry out, the one up to its capacity, the other
up to the end of the image, and so their answers are the same just if both ends cut the read to the same
length. -/
theorem reads_agree_iff (e : Endpoint) (images : MemoryImages) (name : String)
    (pieces : List (UInt64 × Bytes)) (offset : UInt64) (count : Nat) (sized : e.capacity ≠ 0)
    (attached : ((e.withBuffering true).readBack name pieces offset count images).attached = .ok ()) :
    let copying := (e.withBuffering true).readBack name pieces offset count images
    let bare := (e.withBuffering false).readBack name pieces offset count images
    bare.attached = .ok () ∧ copying.written = bare.written ∧
      ∃ image, bare.media.image? name = some image ∧
        (e.capacity ≤ offset → copying.answer = .error (.nonExistentAddress offset) ∧
          bare.answer = .error (.nonExistentAddress offset)) ∧
        (offset < e.capacity →
          copying.answer = .ok (.upTo e.capacity.toNat offset.toNat count image) ∧
            bare.answer = .ok (.upTo image.size offset.toNat count image)) ∧
        (copying.answer = bare.answer ↔ e.capacity ≤ offset ∨
          min (offset.toNat + count) e.capacity.toNat - offset.toNat =
            min (offset.toNat + count) image.size - offset.toNat) := by
  intro copying bare
  obtain ⟨-, held, attached', begun⟩ := Paired.attach sized attached
  obtain ⟨written, after⟩ := begun.writes sized held pieces
  obtain ⟨image, there, kept, outside, inside⟩ := after.read_upTo sized offset count
  refine ⟨attached', written, image, (congrArg (MemoryImages.image? name) kept).trans there, outside,
    inside, ?_⟩
  by_cases past : e.capacity ≤ offset
  · obtain ⟨refused, refused'⟩ := outside past
    exact iff_of_true (refused.trans refused'.symm) (.inl past)
  · obtain ⟨reads, reads'⟩ := inside (UInt64.not_le.1 past)
    have short : copying.answer = .ok (.upTo e.capacity.toNat offset.toNat count image) := reads
    have long : bare.answer = .ok (.upTo image.size offset.toNat count image) := reads'
    rw [short, long, Except.ok.injEq, Reading.upTo_eq_iff, or_iff_right past]

/-- Over an image of eight bytes, the last two bytes of a unit of four: asked for four, the copy has two
and zeros, while the medium goes on past the end of the unit. -/
theorem read_reaches_past_unit :
    let drive : Endpoint := { name := "DK0", can := { attachable := true }, capacity := 4 }
    let images := MemoryImages.empty.install "d.img" #[7, 7, 7, 7, 7, 7, 7, 7]
    let copying := (drive.withBuffering true).readBack "d.img" [(1, #[5, 6])] 2 4 images
    let bare := (drive.withBuffering false).readBack "d.img" [(1, #[5, 6])] 2 4 images
    drive.capacity ≠ 0 ∧ copying.attached = .ok () ∧ bare.attached = .ok () ∧
      copying.written = [.ok ()] ∧ bare.written = [.ok ()] ∧
      copying.answer = .ok ⟨2, #[6, 7, 0, 0]⟩ ∧ bare.answer = .ok ⟨4, #[6, 7, 7, 7]⟩ ∧
      copying.answer ≠ bare.answer := by
  intro drive images copying bare
  have sized : drive.capacity ≠ 0 := by decide
  have attached : copying.attached = .ok () := by decide +kernel
  have written : copying.written = [.ok ()] := by decide +kernel
  obtain ⟨attached', same, image, there, -, reads, agree⟩ :=
    reads_agree_iff drive images "d.img" [(1, #[5, 6])] 2 4 sized attached
  have holds : bare.media.image? "d.img" = some #[7, 5, 6, 7, 7, 7, 7, 7] := by decide +kernel
  obtain rfl : #[7, 5, 6, 7, 7, 7, 7, 7] = image := Option.some.inj (holds.symm.trans there)
  obtain ⟨short, long⟩ := reads (by decide)
  exact ⟨sized, attached, attached', written, same.symm.trans written, short, long,
    fun alike => absurd (agree.1 alike) (by decide)⟩

end Peripheral
