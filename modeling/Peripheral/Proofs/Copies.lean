import Peripheral.Proofs.Attaching
import Peripheral.Proofs.Buffering

/-!
# What copies in memory keep

A buffered unit works on a copy of an image. How long the copy is was settled when the unit was attached;
the size of the unit and the images may change afterwards, and writes may leave gaps or be empty.

* `Bytes.slice?` : a piece of a byte string that is cut out only if it lies inside;
* `Origin`, `Endpoint.copied?` : what a copy was made of, and what attaching a unit copies;
* `Buffer.Keeps` : the marks of a copy and its origin (`keeps_copy`, `Keeps.overwrite`);
* `Endpoint.attach_cases`, `write_cases`, `detach_cases` : all that these do to a unit;
* `Endpoint.Traced` : the units that come up, each with the origin of its latest copy;
* `Endpoint.Cuts` : what reads, writes and detaching take out of a copy lies inside it;
* `copies_keep_to_their_origins` : **a copy keeps its length, is zero from its high-water mark on, is the
  image it was made of unless it is dirty, and nothing is cut out of it that it does not have**.
-/

namespace Peripheral

namespace Bytes

/-- The bytes from `first` up to `last`, if the byte string has them. -/
def slice? (first last : Nat) (data : Bytes) : Option Bytes :=
  if first ≤ last ∧ last ≤ data.size then some (data.extract first last) else none

theorem slice?_of_le {first last : Nat} {data : Bytes} (ordered : first ≤ last) (inside : last ≤ data.size) :
    ∃ piece, data.slice? first last = some piece ∧ piece = data.extract first last ∧
      piece.size = last - first := by
  refine ⟨_, if_pos ⟨ordered, inside⟩, rfl, ?_⟩
  rw [Array.size_extract]
  omega

theorem extract_min (first last : Nat) (data : Bytes) :
    data.extract first (min last data.size) = data.extract first last := by
  refine ext_getD ?_ fun i inside => ?_
  · simp only [Array.size_extract]
    omega
  · rw [Array.size_extract] at inside
    rw [getD_extract, getD_extract, if_pos (by omega), if_pos (by omega)]

end Bytes

/-! ## Copies -/

/-- What a copy was made of, and how long it was to be. -/
structure Origin where
  image : Bytes
  size : Nat
deriving DecidableEq, Repr

namespace Origin

/-- The bytes of the image that the copy takes over. -/
def part (o : Origin) : Bytes := o.image.extract 0 o.size

def copy (o : Origin) : Bytes := Bytes.padTo o.size o.part

theorem size_part (o : Origin) : o.part.size = min o.size o.image.size := by
  rw [part, Array.size_extract, Nat.sub_zero]

@[simp] theorem size_copy (o : Origin) : o.copy.size = o.size := by
  rw [copy, Bytes.size_padTo, size_part]
  omega

end Origin

/-- The copy is as long as it was made and zero from its mark on, and it is what it was made of unless it is
dirty. -/
structure Buffer.Keeps (o : Origin) (dirty : Bool) (b : Buffer) : Prop where
  mark : b.highWater ≤ b.data.size
  size : b.data.size = o.size
  blank : ∀ i, b.highWater ≤ i → b.data.getD i 0 = 0
  clean : dirty = false → b.data = o.copy

namespace Buffer

theorem keeps_copy (o : Origin) : Keeps o false ⟨o.copy, o.part.size⟩ where
  mark := by
    rw [Origin.size_copy, Origin.size_part]
    exact Nat.min_le_left ..
  size := o.size_copy
  blank i past := by
    dsimp only at past ⊢
    rw [Origin.size_part] at past
    rw [Origin.copy, Bytes.getD_padTo, Origin.part, Bytes.getD_extract, Nat.zero_add]
    split
    · have beyond : o.image.size ≤ i := by omega
      rw [Array.getD_eq_getD_getElem?, Array.getElem?_eq_none beyond]
      rfl
    · rfl
  clean _ := rfl

/-- Bytes that are put inside a copy keep its length, and the mark moves past them; where they leave a gap the
zeros before them stay. -/
theorem Keeps.overwrite {o : Origin} {dirty : Bool} {b : Buffer} (keeps : b.Keeps o dirty) {offset : Nat}
    {data : Bytes} (fits : offset + data.size ≤ b.data.size) :
    Keeps o true ⟨b.data.overwrite offset data, max b.highWater (offset + data.size)⟩ where
  mark := by
    rw [Bytes.size_overwrite]
    have := keeps.mark
    dsimp only
    omega
  size := by
    rw [Bytes.size_overwrite, ← keeps.size]
    exact Nat.max_eq_left fits
  blank i past := by
    dsimp only at past ⊢
    rw [Bytes.getD_overwrite, if_neg (by omega)]
    exact keeps.blank i (by omega)
  clean written := nomatch written

end Buffer

namespace Endpoint

/-- What a copy for the unit is made of: its size settles the length, or the image if that is zero. -/
def originOf (image : Bytes) (e : Endpoint) : Origin :=
  ⟨image, if e.capacity = 0 then image.size else e.capacity.toNat⟩

/-- What is copied when the unit is attached to the image of a name: nothing if that fails, or if the unit is
not buffered. -/
def copied? (name : String) (e : Endpoint) (s : MemoryImages) : Option Origin :=
  if (e.attach name s).1.isOk && e.can.buffered then (s.image? name).map e.originOf else none

def Faithful (o : Option Origin) (e : Endpoint) : Prop :=
  ∀ a b, e.attachment = some a → a.buffer = some b → ∃ origin, o = some origin ∧ b.Keeps origin a.dirty

/-! ## What is done to a unit -/

theorem load_of_there (medium : Handle) (e : Endpoint) {image : Bytes} {s : MemoryImages}
    (there : s.image? medium.name = some image) :
    e.load medium s =
      if Bytes.allocatable (e.originOf image).size then
        (.ok ⟨(e.originOf image).copy, (e.originOf image).part.size⟩, s, [.buffering e.name])
      else (.error .noMemory, s, []) := by
  have sized : e.bufferSize medium s = (.ok (e.originOf image).size, s) := by
    unfold bufferSize originOf
    split
    · simp only [MediaStore.length, MemoryImages.behind, there, Except.map]
    · rfl
  unfold load
  rw [sized]
  dsimp only
  rw [MemoryImages.read_of_image there, UInt64.toNat_zero, Nat.zero_add]
  rfl

/-- Attaching fails and leaves the unit alone, or binds it, with a copy of the image if it is buffered. -/
theorem attach_cases (name : String) (e : Endpoint) (s : MemoryImages) :
    (∃ status, (e.attach name s).1 = .error status) ∧ (e.attach name s).2.1 = e ∨
      (e.attach name s).1 = .ok () ∧ ∃ medium image, s.image? name = some image ∧
        (e.can.buffered = false ∧ (e.attach name s).2.1.attachment = some ⟨medium, none, false⟩ ∨
          e.can.buffered = true ∧ ∃ b, (e.attach name s).2.1.attachment = some ⟨medium, some b, false⟩ ∧
            b.Keeps (e.originOf image) false) := by
  unfold attach
  split
  · exact .inl ⟨⟨_, rfl⟩, rfl⟩
  split
  · exact .inl ⟨⟨_, rfl⟩, rfl⟩
  dsimp only [MediaStore.openMedium]
  unfold MemoryImages.openMedium
  cases there : s.image? name with
  | none => exact .inl ⟨⟨_, rfl⟩, rfl⟩
  | some image =>
    dsimp only
    split
    · rename_i buffered
      have loaded := load_of_there ⟨name, e.can.readOnly⟩ e there
      by_cases held : Bytes.allocatable (e.originOf image).size
      · rw [loaded, if_pos held]
        exact .inr ⟨rfl, _, image, rfl, .inr ⟨buffered, _, rfl, Buffer.keeps_copy _⟩⟩
      · rw [loaded, if_neg held]
        exact .inl ⟨⟨_, rfl⟩, rfl⟩
    · rename_i plain
      exact .inr ⟨rfl, _, image, rfl, .inl ⟨Bool.eq_false_iff.2 plain, rfl⟩⟩

theorem detach_cases (e : Endpoint) (s : MemoryImages) :
    (e.detach s).2.1 = e ∨ (e.detach s).2.1.attachment = none := by
  unfold detach
  split
  · exact .inl rfl
  split
  · exact .inl rfl
  dsimp only
  split
  · exact .inr rfl
  split
  · split
    · exact .inr rfl
    · exact .inr rfl
  · exact .inr rfl

/-- A write that goes well to a unit with a copy lies inside that and is put there; any other one leaves the
unit alone. -/
theorem write_cases (offset : UInt64) (data : Bytes) (e : Endpoint) (s : MemoryImages) :
    (e.write offset data s).2.1 = e ∧
        ((e.write offset data s).1 = .ok () → ∀ a, e.attachment = some a → a.buffer = none) ∨
      ∃ a b, e.attachment = some a ∧ a.buffer = some b ∧ offset.toNat + data.size ≤ b.data.size ∧
        e.write offset data s = (.ok (), { e with attachment := some { a with
          buffer := some ⟨b.data.overwrite offset.toNat data, max b.highWater (offset.toNat + data.size)⟩,
          dirty := true } }, s) := by
  unfold write
  dsimp only
  split
  · exact .inl ⟨rfl, fun well => nomatch well⟩
  split
  · exact .inl ⟨rfl, fun well => nomatch well⟩
  rename_i a bound
  split
  · exact .inl ⟨rfl, fun well => nomatch well⟩
  split
  · exact .inl ⟨rfl, fun well => nomatch well⟩
  split
  · rename_i b copy
    split
    · rename_i inside
      exact .inr ⟨a, b, bound, copy, inside, rfl⟩
    · exact .inl ⟨rfl, fun well => nomatch well⟩
  · rename_i plain
    refine .inl ⟨rfl, fun _ c same => ?_⟩
    cases bound.symm.trans same
    exact plain

theorem transfer_cases (sectorSize : UInt64) (request : Request) (e : Endpoint) (s : MemoryImages) :
    (e.transfer sectorSize request s).2.1 = e ∨
      ∃ offset data, (e.transfer sectorSize request s).2.1 = (e.write offset data s).2.1 := by
  cases request with
  | read lba sectors => exact .inl rfl
  | write lba data =>
    dsimp only [transfer, writeSectors]
    split
    · exact .inl rfl
    split
    · exact .inl rfl
    · rename_i offset _
      refine .inr ⟨offset, data, ?_⟩
      rcases e.write offset data s with ⟨status | ⟨⟩, e', media⟩
      · rfl
      · rfl

variable {o : Option Origin} {e : Endpoint}

theorem faithful_of_unattached (free : e.attachment = none) : e.Faithful o :=
  fun _ _ bound => nomatch free.symm.trans bound

theorem Faithful.write (faithful : e.Faithful o) (offset : UInt64) (data : Bytes) (s : MemoryImages) :
    (e.write offset data s).2.1.Faithful o := by
  rcases write_cases offset data e s with ⟨same, -⟩ | ⟨a, b, bound, copy, inside, written⟩
  · rwa [same]
  · obtain ⟨origin, is, keeps⟩ := faithful a b bound copy
    rw [written]
    rintro _ _ ⟨⟩ ⟨⟩
    exact ⟨origin, is, keeps.overwrite inside⟩

theorem Faithful.transfer (faithful : e.Faithful o) (sectorSize : UInt64) (request : Request)
    (s : MemoryImages) : (e.transfer sectorSize request s).2.1.Faithful o := by
  rcases transfer_cases sectorSize request e s with same | ⟨offset, data, same⟩
  · rwa [same]
  · rw [same]
    exact faithful.write offset data s

theorem Faithful.detach (faithful : e.Faithful o) (s : MemoryImages) : (e.detach s).2.1.Faithful o := by
  rcases detach_cases e s with same | free
  · rwa [same]
  · exact faithful_of_unattached free

theorem Faithful.attach (faithful : e.Faithful o) (name : String) (s : MemoryImages) :
    (e.attach name s).2.1.Faithful ((e.copied? name s).or o) := by
  unfold copied?
  rcases attach_cases name e s with ⟨⟨status, failed⟩, same⟩ | ⟨well, medium, image, there, bound⟩
  · rw [failed, same]
    exact faithful
  rcases bound with ⟨-, bound⟩ | ⟨buffered, b, bound, keeps⟩
  · intro a b is copy
    cases bound.symm.trans is
    exact nomatch copy
  · rw [well, buffered, there]
    intro a c is copy
    cases bound.symm.trans is
    cases copy
    exact ⟨_, rfl, keeps⟩

/-! ## Sequences of operations -/

/-- Units, with the images, that come up when a unit is attached, read, written and detached, well or not,
with the origin of the latest copy. In between all but its attachment may be changed from outside, and so may
the images. -/
inductive Traced : Option Origin → Endpoint → MemoryImages → Prop
  | unattached {e : Endpoint} {s : MemoryImages} : e.attachment = none → Traced none e s
  | attach {o : Option Origin} {e : Endpoint} {s : MemoryImages} (name : String) : Traced o e s →
    Traced ((e.copied? name s).or o) (e.attach name s).2.1 (e.attach name s).2.2.1
  | detach {o : Option Origin} {e : Endpoint} {s : MemoryImages} : Traced o e s →
    Traced o (e.detach s).2.1 (e.detach s).2.2.1
  | read {o : Option Origin} {e : Endpoint} {s : MemoryImages} (offset : UInt64) (count : Nat) :
    Traced o e s → Traced o e (e.read offset count s).2
  | write {o : Option Origin} {e : Endpoint} {s : MemoryImages} (offset : UInt64) (data : Bytes) :
    Traced o e s → Traced o (e.write offset data s).2.1 (e.write offset data s).2.2
  | transfer {o : Option Origin} {e : Endpoint} {s : MemoryImages} (sectorSize : UInt64) (request : Request) :
    Traced o e s → Traced o (e.transfer sectorSize request s).2.1 (e.transfer sectorSize request s).2.2
  | aside {o : Option Origin} {e f : Endpoint} {s t : MemoryImages} : Traced o e s →
    f.attachment = e.attachment → Traced o f t

theorem Traced.faithful {s : MemoryImages} (traced : Traced o e s) : e.Faithful o := by
  induction traced with
  | unattached free => exact faithful_of_unattached free
  | attach name _ ih => exact ih.attach name _
  | detach _ ih => exact ih.detach _
  | read offset count _ ih => exact ih
  | write offset data _ ih => exact ih.write offset data _
  | transfer sectorSize request _ ih => exact ih.transfer sectorSize request _
  | aside _ same ih => exact fun a b bound => ih a b (same ▸ bound)

/-- What is taken out of the copy of a unit is there: by a read that starts inside the copy, by a write that
goes well, whose bytes take the place of as many, and by saving the copy when the medium is let go. -/
structure Cuts (e : Endpoint) (a : Attachment) (b : Buffer) (s : MemoryImages) : Prop where
  read : ∀ offset count, offset.toNat < b.data.size →
    ∃ piece, b.data.slice? offset.toNat (min (offset.toNat + count) b.data.size) = some piece ∧
      piece.size ≤ count ∧ e.read offset count s = (.ok ⟨piece.size, Bytes.padTo count piece⟩, s)
  refused : ∀ offset count, b.data.size ≤ offset.toNat →
    e.read offset count s = (.error (.nonExistentAddress offset), s)
  write : ∀ offset data f t, e.write offset data s = (.ok (), f, t) →
    ∃ old, b.data.slice? offset.toNat (offset.toNat + data.size) = some old ∧ old.size = data.size ∧
      f.buffer? = some ⟨b.data.overwrite offset.toNat data, max b.highWater (offset.toNat + data.size)⟩
  save : e.can.attachable = true → e.Unsaved a b →
    ∃ piece, b.data.slice? 0 b.highWater = some piece ∧ piece.size = b.highWater ∧
      (e.detach s).1 = (MediaStore.write a.medium 0 piece s).1 ∧
      (e.detach s).2.2.1 = (MediaStore.write a.medium 0 piece s).2

/-- Letting the medium go writes what is below the mark of an unsaved copy back, and has no other answer. -/
theorem detach_of_unsaved {a : Attachment} {b : Buffer} (attachable : e.can.attachable = true)
    (bound : e.attachment = some a) (unsaved : e.Unsaved a b) (s : MemoryImages) :
    (e.detach s).1 = (MediaStore.write a.medium 0 (b.data.extract 0 b.highWater) s).1 ∧
      (e.detach s).2.2.1 = (MediaStore.write a.medium 0 (b.data.extract 0 b.highWater) s).2 := by
  have able : ¬(!e.can.attachable) = true := by simp [attachable]
  have owed : (a.dirty && !e.can.readOnly && 0 < b.highWater) = true := by
    simp [unsaved.dirty, unsaved.writable, unsaved.marked]
  unfold detach
  rw [if_neg able, bound]
  dsimp only
  rw [unsaved.copied]
  dsimp only
  rw [if_pos owed]
  unfold writeBack
  rcases MediaStore.write a.medium 0 (b.data.extract 0 b.highWater) s with ⟨status | ⟨⟩, media⟩
  · exact ⟨rfl, rfl⟩
  · exact ⟨rfl, rfl⟩

theorem cuts_of_mark {a : Attachment} {b : Buffer} (bound : e.attachment = some a) (copied : a.buffer = some b)
    (mark : b.highWater ≤ b.data.size) (s : MemoryImages) : e.Cuts a b s where
  read offset count starts := by
    have ordered : offset.toNat ≤ min (offset.toNat + count) b.data.size := by omega
    obtain ⟨piece, cut, is, size⟩ := Bytes.slice?_of_le ordered (Nat.min_le_right ..)
    refine ⟨piece, cut, by omega, ?_⟩
    unfold Endpoint.read
    rw [bound]
    dsimp only
    rw [copied]
    dsimp only
    rw [if_pos starts, is, Bytes.extract_min]
  refused offset count outside := by
    unfold Endpoint.read
    rw [bound]
    dsimp only
    rw [copied]
    exact if_neg (Nat.not_lt.2 outside)
  write offset data f t written := by
    rcases write_cases offset data e s with ⟨-, plain⟩ | ⟨a', b', is, copy, inside, put⟩
    · rw [written] at plain
      exact nomatch copied.symm.trans (plain rfl a bound)
    · cases bound.symm.trans is
      cases copied.symm.trans copy
      cases written.symm.trans put
      obtain ⟨old, cut, -, size⟩ := Bytes.slice?_of_le (Nat.le_add_right offset.toNat data.size) inside
      exact ⟨old, cut, by omega, rfl⟩
  save attachable unsaved := by
    obtain ⟨piece, cut, is, size⟩ := Bytes.slice?_of_le (Nat.zero_le b.highWater) mark
    exact ⟨piece, cut, size, is ▸ detach_of_unsaved attachable bound unsaved s⟩

end Endpoint

/-- However a unit on images in memory is used, and however its size and the images are changed meanwhile: as
long as it has a copy of an image, that is as long as when it was made, its mark lies inside it, it is zero
from there on, and unless it is dirty it is the image that it was made of, cut or filled up. So all that is
cut out of it is there. -/
theorem copies_keep_to_their_origins {o : Option Origin} {e : Endpoint} {s : MemoryImages} {a : Attachment}
    {b : Buffer} (traced : Endpoint.Traced o e s) (bound : e.attachment = some a)
    (copied : a.buffer = some b) : (∃ origin, o = some origin ∧ b.Keeps origin a.dirty) ∧ e.Cuts a b s := by
  obtain ⟨origin, is, keeps⟩ := traced.faithful a b bound copied
  exact ⟨⟨origin, is, keeps⟩, Endpoint.cuts_of_mark bound copied keeps.mark s⟩

/-- The unit is made smaller and the image replaced after the copy was made; then a write leaves a gap and an
empty one moves the mark to the end of the copy. -/
theorem copy_with_gap_is_saved_whole :
    ∃ (e : Endpoint) (s : MemoryImages), Endpoint.Traced (some ⟨#[7, 8], 6⟩) e s ∧
      e.attachment = some ⟨⟨"d", false⟩, some ⟨#[7, 8, 0, 0, 9, 0], 6⟩, true⟩ ∧ e.capacity = 3 ∧
      s.image? "d" = some #[1] ∧ (∀ i, 6 ≤ i → (#[7, 8, 0, 0, 9, 0] : Bytes).getD i 0 = 0) ∧
      (e.detach s).2.2.1.image? "d" = some #[7, 8, 0, 0, 9, 0] := by
  let free : Endpoint := { name := "DK0", can := ⟨true, true, false⟩, capacity := 6 }
  let images : MemoryImages := ⟨[("d", #[7, 8])], []⟩
  let later : MemoryImages := ⟨[("d", #[1])], []⟩
  let e (capacity : UInt64) (b : Buffer) (dirty : Bool) : Endpoint :=
    { free with capacity, attachment := some ⟨⟨"d", false⟩, some b, dirty⟩ }
  have fresh : Endpoint.Traced none free images := .unattached rfl
  have origin : free.copied? "d" images = some ⟨#[7, 8], 6⟩ := by decide +kernel
  have attached := fresh.attach "d"
  rw [origin] at attached
  have resized : Endpoint.Traced (some ⟨#[7, 8], 6⟩) (e 0 ⟨#[7, 8, 0, 0, 0, 0], 2⟩ false) later :=
    attached.aside (by decide +kernel)
  have gap : Endpoint.Traced (some ⟨#[7, 8], 6⟩) (e 0 ⟨#[7, 8, 0, 0, 9, 0], 5⟩ true) later :=
    (resized.write 4 #[9]).aside (by decide +kernel)
  have traced : Endpoint.Traced (some ⟨#[7, 8], 6⟩) (e 3 ⟨#[7, 8, 0, 0, 9, 0], 6⟩ true) later :=
    (gap.write 6 #[]).aside (by decide +kernel)
  obtain ⟨⟨_, -, keeps⟩, cuts⟩ := copies_keep_to_their_origins traced rfl rfl
  obtain ⟨piece, cut, -, -, left⟩ := cuts.save rfl ⟨rfl, rfl, rfl, by decide⟩
  have whole : piece = #[7, 8, 0, 0, 9, 0] := by
    cases cut
    rfl
  refine ⟨_, later, traced, rfl, rfl, rfl, keeps.blank, ?_⟩
  rw [left, whole]
  decide +kernel

end Peripheral
