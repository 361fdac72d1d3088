import Peripheral.Proofs.Buffering
import Peripheral.Proofs.Extents

/-!
# Images in place of host files

An image in memory stands in for a file of the host: an opened medium gives the same answers on either, and leaves
the same bytes, as long as no empty write lies past the end. There a file stays as it is, while an image grows.

* `MediumCall`, `MediumAnswer` : what an opened medium is asked for, and what it answers; `performAll` : one call
  after the other;
* `MediumCall.answer`, `MediumCall.after` : a regular file, that is its bytes;
* `HostFiles.perform_of_contents`, `MemoryImages.perform_of_image` : **one call on either**;
* `HostFiles.readOn` : a file is read in portions as large as the host likes (`HostFiles.readInPortions_eq`);
* `image_stands_in_iff` : **both agree on every call up to any point exactly when no empty write lies past the end**.
-/

namespace Peripheral

/-! ## Calls on an opened medium -/

/-- A call on an opened medium. A read is given the buffer that it fills. -/
inductive MediumCall where
  | length
  | isEmpty
  | read (offset : UInt64) (buffer : Bytes)
  | write (offset : UInt64) (data : Bytes)
  | flush
deriving DecidableEq, Repr

/-- What a call answers. A read gives the count of bytes read, and the buffer with them at its front. -/
inductive MediumAnswer where
  | size (bytes : Nat)
  | empty (holds : Bool)
  | filled (count : Nat) (buffer : Bytes)
  | done
deriving DecidableEq, Repr

/-- What was read takes the place of the front of the buffer. -/
def MediumAnswer.ofRead (buffer data : Bytes) : MediumAnswer := .filled data.size (buffer.overwrite 0 data)

namespace MediumCall

variable {σ : Type} [MediaStore σ]

def perform (medium : Handle) (store : σ) : MediumCall → Except Status MediumAnswer × σ
  | .length =>
    let (size, store) := MediaStore.length medium store
    (size.map .size, store)
  | .isEmpty =>
    let (empty, store) := MediaStore.isEmpty medium store
    (empty.map .empty, store)
  | .read offset buffer =>
    let (data, store) := MediaStore.read medium offset buffer.size store
    (data.map (.ofRead buffer), store)
  | .write offset data =>
    let (written, store) := MediaStore.write medium offset data store
    (written.map fun _ => .done, store)
  | .flush =>
    let (flushed, store) := MediaStore.flush medium store
    (flushed.map fun _ => .done, store)

def performAll (medium : Handle) : List MediumCall → σ → List (Except Status MediumAnswer) × σ
  | [], store => ([], store)
  | call :: rest, store =>
    let (answer, store) := call.perform medium store
    let (answers, store) := performAll medium rest store
    (answer :: answers, store)

/-- The bytes in range of a call. -/
def reach : MediumCall → Nat
  | .read offset buffer => offset.toNat + buffer.size
  | .write offset data => offset.toNat + data.size
  | _ => 0

def start : MediumCall → Nat
  | .read offset _ | .write offset _ => offset.toNat
  | _ => 0

/-- What a call is about can be held in memory, and begins where the host has files. -/
def Small (call : MediumCall) : Prop :=
  Bytes.allocatable call.reach = true ∧ call.start ≤ HostFiles.offsetLimit

instance (call : MediumCall) : Decidable call.Small := inferInstanceAs (Decidable (_ ∧ _))

/-! ## A regular file -/

/-- What a file of these bytes answers. Reads stop at its end. -/
def answer (data : Bytes) : MediumCall → MediumAnswer
  | .length => .size data.size
  | .isEmpty => .empty (data.size == 0)
  | .read offset buffer => .ofRead buffer (data.extract offset.toNat (offset.toNat + buffer.size))
  | .write _ _ | .flush => .done

/-- The bytes of a file after a call. A write past the end fills the gap with zeros, an empty one does nothing. -/
def after (data : Bytes) : MediumCall → Bytes
  | .write offset patch => if patch.isEmpty then data else data.overwrite offset.toNat patch
  | _ => data

def onFile : List MediumCall → Bytes → List MediumAnswer × Bytes
  | [], data => ([], data)
  | call :: rest, data =>
    let (answers, last) := onFile rest (call.after data)
    (call.answer data :: answers, last)

/-- A call is an empty write past the end of these bytes. -/
def EmptyPast (data : Bytes) : MediumCall → Prop
  | .write offset patch => patch = #[] ∧ data.size < offset.toNat
  | _ => False

/-- An image after a call: it is overwritten by empty writes too. -/
def imageAfter (data : Bytes) : MediumCall → Bytes
  | .write offset patch => data.overwrite offset.toNat patch
  | _ => data

end MediumCall

/-- An empty patch does nothing inside the bytes; past their end it makes them longer. -/
theorem Bytes.overwrite_empty_eq_iff (data : Bytes) (offset : Nat) :
    data.overwrite offset #[] = data ↔ offset ≤ data.size := by
  have size := Bytes.size_overwrite data offset #[]
  have none : (#[] : Bytes).size = 0 := rfl
  constructor
  · intro same
    rw [same] at size
    omega
  · intro inside
    refine Bytes.ext_getD (by omega) fun i _ => ?_
    rw [Bytes.getD_overwrite, if_neg (by omega)]

/-- An image and a file go apart exactly at an empty write past the end. -/
theorem MediumCall.imageAfter_eq_iff (data : Bytes) (call : MediumCall) :
    call.imageAfter data = call.after data ↔ ¬ call.EmptyPast data := by
  cases call with
  | write offset patch =>
    by_cases empty : patch = #[]
    · subst empty
      have kept : MediumCall.after data (.write offset #[]) = data := rfl
      have grown : imageAfter data (.write offset #[]) = data.overwrite offset.toNat #[] := rfl
      rw [kept, grown, Bytes.overwrite_empty_eq_iff]
      simp [EmptyPast]
    · have some : patch.isEmpty = false := by simpa using empty
      simp [imageAfter, after, some, EmptyPast, empty]
  | _ => exact iff_of_true rfl id

/-! ## Images in memory -/

theorem MemoryImages.perform_of_image {images : MemoryImages} {medium : Handle} {data : Bytes} {call : MediumCall}
    (there : images.image? medium.name = some data) (small : call.Small) :
    ∃ images', call.perform medium images = (.ok (call.answer data), images') ∧
      images'.image? medium.name = some (call.imageAfter data) := by
  have length : MediaStore.length medium images = (.ok data.size, images) := by
    simp only [MediaStore.length, behind, there, Except.map]
  cases call with
  | length => exact ⟨images, by simp only [MediumCall.perform, length, Except.map, MediumCall.answer], there⟩
  | isEmpty =>
    refine ⟨images, ?_, there⟩
    simp only [MediumCall.perform, MediaStore.isEmpty, length, Except.map, MediumCall.answer]
  | read offset buffer =>
    refine ⟨images, ?_, there⟩
    simp only [MediumCall.perform, read_of_image there, Except.map, MediumCall.answer]
  | write offset patch =>
    obtain ⟨images', wrote, images_after⟩ := write_of_image there small.1
    refine ⟨images', ?_, ?_⟩
    · simp only [MediumCall.perform, wrote, Except.map, MediumCall.answer]
    · rw [images_after, if_pos rfl, MediumCall.imageAfter]
  | flush => exact ⟨images, rfl, there⟩

/-! ## Files of the host -/

namespace HostFiles

variable {fs : HostFiles} {name : String} {data : Bytes}

theorem lookup_of_contents (there : fs.contents? name = some data) :
    fs.lookup (fs.resolve name) = .ok (.file data) := by
  unfold contents? at there
  split at there
  · rename_i held found
    rw [found, Option.some.inj there]
  · exact nomatch there

theorem place_of_contents (there : fs.contents? name = some data) :
    ∃ place, fs.walk (fs.resolve name) = .ok place ∧ fs.node? place = some (.file data) ∧
      fs.fileAt? place.names = some data := by
  have found := lookup_of_contents there
  unfold lookup at found
  cases led : fs.walk (fs.resolve name) with
  | error fault =>
    rw [led] at found
    exact nomatch found
  | ok place =>
    simp only [led, bind, Except.bind] at found
    cases stands : fs.node? place with
    | none =>
      rw [stands] at found
      exact nomatch found
    | some node =>
      rw [stands] at found
      obtain rfl : node = .file data := Except.ok.inj found
      refine ⟨place, rfl, stands, ?_⟩
      unfold node? at stands
      split at stands
      · exact nomatch stands
      · exact nomatch stands
      · split at stands
        · rename_i held
          obtain rfl : _ = data := Node.file.inj (Option.some.inj stands)
          exact held
        · split at stands <;> exact nomatch stands

theorem openMedium_of_contents (there : fs.contents? name = some data) (readOnly : Bool) :
    fs.openMedium name readOnly = .ok { name, readOnly } := by
  simp only [openMedium, lookup_of_contents there]

theorem behind_of_contents {medium : Handle} (there : fs.contents? medium.name = some data) :
    fs.behind medium = .ok (.file data) := by
  simp only [behind, lookup_of_contents there]

theorem write_of_contents {medium : Handle} (there : fs.contents? medium.name = some data)
    (writable : medium.readOnly = false) {offset : UInt64} (inside : offset.toNat ≤ offsetLimit) {patch : Bytes}
    (some : patch.isEmpty = false) :
    ∃ fs', fs.write medium offset patch = (.ok (), fs') ∧
      fs'.contents? medium.name = Option.some (data.overwrite offset.toNat patch) := by
  obtain ⟨place, led, stands, held⟩ := place_of_contents there
  refine ⟨fs.setFile place.names (data.overwrite offset.toNat patch), ?_, ?_⟩
  · simp only [write, if_neg (Nat.not_lt.mpr inside), some, writable, led, held]
    rfl
  · have resolved : (fs.setFile place.names (data.overwrite offset.toNat patch)).resolve medium.name =
        fs.resolve medium.name := rfl
    simp only [contents?, lookup, resolved, walk_setFile _ held, led, bind, Except.bind, node?_setFile _ held,
      stands, if_pos]

theorem perform_of_contents {medium : Handle} {call : MediumCall} (there : fs.contents? medium.name = some data)
    (writable : medium.readOnly = false) (small : call.Small) :
    ∃ fs', call.perform medium fs = (.ok (call.answer data), fs') ∧
      fs'.contents? medium.name = some (call.after data) := by
  have length : MediaStore.length medium fs = (.ok data.size, fs) := by
    simp only [MediaStore.length, HostFiles.length, behind_of_contents there, Except.map]
  cases call with
  | length => exact ⟨fs, by simp only [MediumCall.perform, length, Except.map, MediumCall.answer], there⟩
  | isEmpty =>
    refine ⟨fs, ?_, there⟩
    simp only [MediumCall.perform, MediaStore.isEmpty, length, Except.map, MediumCall.answer]
  | read offset buffer =>
    have inside : ¬ offsetLimit < offset.toNat := Nat.not_lt.mpr small.2
    refine ⟨fs, ?_, there⟩
    simp only [MediumCall.perform, MediaStore.read, HostFiles.read, behind_of_contents there, bind, Except.bind,
      if_neg inside, Except.map, MediumCall.answer]
  | write offset patch =>
    have inside : offset.toNat ≤ offsetLimit := small.2
    by_cases empty : patch.isEmpty = true
    · refine ⟨fs, ?_, by rw [MediumCall.after, if_pos empty]; exact there⟩
      simp only [MediumCall.perform, MediaStore.write, HostFiles.write, if_neg (Nat.not_lt.mpr inside), empty, if_true,
        Except.map, MediumCall.answer]
    · rw [Bool.not_eq_true] at empty
      obtain ⟨fs', wrote, stands⟩ := write_of_contents there writable inside empty
      refine ⟨fs', ?_, ?_⟩
      · simp only [MediumCall.perform, MediaStore.write, wrote, Except.map, MediumCall.answer]
      · rw [stands, MediumCall.after, empty]
        rfl
  | flush => exact ⟨fs, rfl, there⟩

/-! ## Reads in portions -/

/-- One read from a position on: as many of the wanted bytes as the host likes, but one at least unless none is left. -/
def portion (likes : Nat → Nat) (data : Bytes) (position wanted : Nat) : Bytes :=
  data.extract position (position + min wanted (max 1 (likes position)))

theorem size_portion_le (likes : Nat → Nat) (data : Bytes) (position wanted : Nat) :
    (portion likes data position wanted).size ≤ wanted := by
  rw [portion, Array.size_extract]
  omega

/-- Read until all wanted bytes are there, or a read gives none. -/
def readOn (likes : Nat → Nat) (data : Bytes) (position wanted : Nat) : Bytes :=
  if _ : wanted = 0 then #[]
  else
    let piece := portion likes data position wanted
    if _ : piece.size = 0 then #[]
    else piece ++ readOn likes data (position + piece.size) (wanted - piece.size)
termination_by wanted
decreasing_by exact Nat.sub_lt (Nat.pos_of_ne_zero ‹_›) (Nat.pos_of_ne_zero ‹_›)

/-- By induction on the portions: whatever the host likes, the wanted bytes are read up to the end. -/
theorem readOn_eq (likes : Nat → Nat) (data : Bytes) (position wanted : Nat) :
    readOn likes data position wanted = data.extract position (position + wanted) := by
  fun_induction readOn likes data position wanted with
  | case1 position => rw [Nat.add_zero, Array.extract_empty_of_stop_le_start (Nat.le_refl _)]
  | case2 position wanted some piece none =>
    symm
    rw [← Array.size_eq_zero_iff, Array.size_extract]
    have none : (portion likes data position wanted).size = 0 := none
    rw [portion, Array.size_extract] at none
    omega
  | case3 position wanted some piece more ih =>
    have size : piece.size = min (position + min wanted (max 1 (likes position))) data.size - position :=
      Array.size_extract
    have cut : piece = data.extract position (position + piece.size) := by
      refine Bytes.ext_getD ?_ fun i inside => ?_
      · rw [Array.size_extract]
        omega
      · rw [Bytes.getD_extract, if_pos (by omega)]
        show (data.extract position _).getD i 0 = _
        rw [Bytes.getD_extract, if_pos (by omega)]
    have within : piece.size ≤ wanted := size_portion_le likes data position wanted
    have whole : position + piece.size + (wanted - piece.size) = position + wanted := by omega
    calc piece ++ readOn likes data (position + piece.size) (wanted - piece.size)
        = data.extract position (position + piece.size) ++
            data.extract (position + piece.size) (position + wanted) := by rw [ih, whole, ← cut]
      _ = data.extract position (position + wanted) := by
          rw [Array.extract_append_extract, Nat.min_eq_left (by omega), Nat.max_eq_right (by omega)]

/-- A read of a file as the host carries it out, portion by portion. -/
def readInPortions (likes : Nat → Nat) (medium : Handle) (offset : UInt64) (count : Nat) (fs : HostFiles) :
    Except Status Bytes := do
  let node ← fs.behind medium
  if offsetLimit < offset.toNat then .error (.io .invalidOffset)
  else
    match node with
    | .file data => .ok (readOn likes data offset.toNat count)
    | .directory => if count = 0 then .ok #[] else .error (.io .isDirectory)

theorem readInPortions_eq (likes : Nat → Nat) (medium : Handle) (offset : UInt64) (count : Nat) (fs : HostFiles) :
    fs.readInPortions likes medium offset count = fs.read medium offset count := by
  cases held : fs.behind medium with
  | error status => simp only [readInPortions, HostFiles.read, held, bind, Except.bind]
  | ok node =>
    cases node <;> simp only [readInPortions, HostFiles.read, held, bind, Except.bind, readOn_eq]

end HostFiles

/-! ## One call after the other -/

namespace MediumCall

theorem performAll_append {σ : Type} [MediaStore σ] (medium : Handle) (first rest : List MediumCall) (store : σ) :
    performAll medium (first ++ rest) store =
      ((performAll medium first store).1 ++ (performAll medium rest (performAll medium first store).2).1,
        (performAll medium rest (performAll medium first store).2).2) := by
  induction first generalizing store with
  | nil => rfl
  | cons call first ih => simp only [List.cons_append, performAll, ih]

variable {medium : Handle} {data : Bytes} {calls : List MediumCall}

/-- By induction on the calls: a file of the host that is opened for writing is a regular file. -/
theorem performAll_of_contents {fs : HostFiles} (there : fs.contents? medium.name = some data)
    (writable : medium.readOnly = false) (small : ∀ call ∈ calls, call.Small) :
    (performAll medium calls fs).1 = (onFile calls data).1.map .ok ∧
      (performAll medium calls fs).2.contents? medium.name = some (onFile calls data).2 := by
  induction calls generalizing fs data with
  | nil => exact ⟨rfl, there⟩
  | cons call rest ih =>
    obtain ⟨fs', answered, stands⟩ := HostFiles.perform_of_contents there writable (small call List.mem_cons_self)
    obtain ⟨answers, last⟩ := ih stands fun later mem => small later (List.mem_cons_of_mem call mem)
    simp only [performAll, onFile, answered, answers, last, List.map_cons, true_and]

/-- By induction on the calls: so is an image, as long as no empty write lies past the end. -/
theorem performAll_of_image {images : MemoryImages} (there : images.image? medium.name = some data)
    (small : ∀ call ∈ calls, call.Small)
    (inside : ∀ before call rest, calls = before ++ call :: rest → ¬ call.EmptyPast (onFile before data).2) :
    (performAll medium calls images).1 = (onFile calls data).1.map .ok ∧
      (performAll medium calls images).2.image? medium.name = some (onFile calls data).2 := by
  induction calls generalizing images data with
  | nil => exact ⟨rfl, there⟩
  | cons call rest ih =>
    obtain ⟨images', answered, stands⟩ := MemoryImages.perform_of_image there (small call List.mem_cons_self)
    rw [(imageAfter_eq_iff data call).mpr (inside [] call rest rfl)] at stands
    obtain ⟨answers, last⟩ := ih stands (fun later mem => small later (List.mem_cons_of_mem call mem))
      fun before later after cut => inside (call :: before) later after (by rw [cut, List.cons_append])
    simp only [performAll, onFile, answered, answers, last, List.map_cons, true_and]

theorem inside_of_same (medium : Handle) {fs : HostFiles} {images : MemoryImages} {offset : UInt64}
    (onHost : fs.contents? medium.name = some data) (inMemory : images.image? medium.name = some data)
    (writable : medium.readOnly = false) (small : (MediumCall.write offset #[]).Small)
    (same : (performAll medium [.write offset #[]] fs).2.contents? medium.name =
      (performAll medium [.write offset #[]] images).2.image? medium.name) : offset.toNat ≤ data.size := by
  obtain ⟨fs', answered, kept⟩ := HostFiles.perform_of_contents onHost writable small
  obtain ⟨images', answered', grown⟩ := MemoryImages.perform_of_image inMemory small
  simp only [performAll, answered, answered', kept, grown] at same
  exact (Bytes.overwrite_empty_eq_iff data offset.toNat).mp (Option.some.inj same).symm

end MediumCall

open MediumCall

/-- A file of the host and an image of the same bytes, both opened for writing under one name. Whatever small calls
follow, the file answers as a regular file and keeps its bytes, in whatever portions it is read; and the image gives
the same answers and holds the same bytes up to every point exactly when none of the calls is an empty write past the
end of the bytes at that time. -/
theorem image_stands_in_iff {fs : HostFiles} {images : MemoryImages} {name : String} {data : Bytes}
    (onHost : fs.contents? name = some data) (inMemory : images.image? name = some data) (calls : List MediumCall)
    (small : ∀ call ∈ calls, call.Small) :
    let medium : Handle := { name, readOnly := false }
    let host (n : Nat) := performAll medium (calls.take n) fs
    let memory (n : Nat) := performAll medium (calls.take n) images
    MediaStore.openMedium name false fs = (.ok medium, fs) ∧
    MediaStore.openMedium name false images = (.ok medium, images) ∧
    (∀ n, (host n).1 = (onFile (calls.take n) data).1.map .ok ∧
      MediaStore.contents? name (host n).2 = some (onFile (calls.take n) data).2) ∧
    (∀ likes n offset count, (host n).2.readInPortions likes medium offset count =
      (MediaStore.read medium offset count (host n).2).1) ∧
    ((∀ n, (host n).1 = (memory n).1 ∧
        MediaStore.contents? name (host n).2 = MediaStore.contents? name (memory n).2) ↔
      ∀ before offset after, calls = before ++ .write offset #[] :: after →
        offset.toNat ≤ (onFile before data).2.size) := by
  intro medium host memory
  have writable : medium.readOnly = false := rfl
  have atMemory : images.image? medium.name = some data := inMemory
  have prefix_small : ∀ n, ∀ call ∈ calls.take n, call.Small :=
    fun n call mem => small call (List.mem_of_mem_take mem)
  have regular : ∀ n, (host n).1 = (onFile (calls.take n) data).1.map .ok ∧
      (host n).2.contents? name = some (onFile (calls.take n) data).2 :=
    fun n => performAll_of_contents onHost writable (prefix_small n)
  refine ⟨?_, ?_, regular, ?_, ?_⟩
  · simp only [MediaStore.openMedium, HostFiles.openMedium_of_contents onHost, medium]
  · simp only [MediaStore.openMedium, MemoryImages.openMedium, inMemory, medium]
  · exact fun likes n offset count => HostFiles.readInPortions_eq likes medium offset count _
  constructor
  · intro agree before offset after cut
    have upTo : calls.take before.length = before := by rw [cut, List.take_left]
    have past : calls.take (before.length + 1) = before ++ [.write offset #[]] := by
      rw [cut, List.take_length_add_append]
      rfl
    have small_write : (MediumCall.write offset #[]).Small := small _ (by rw [cut]; simp)
    have stands := (regular before.length).2
    have held := (agree before.length).2
    have same := (agree (before.length + 1)).2
    simp only [host, memory, upTo, past, performAll_append] at stands held same
    exact inside_of_same medium stands (held.symm.trans stands) writable small_write same
  · intro inside n
    obtain ⟨answers, last⟩ := regular n
    have noneEmptyPast : ∀ before call rest, calls.take n = before ++ call :: rest →
        ¬ call.EmptyPast (onFile before data).2 := by
      intro before call rest cut past
      cases call with
      | write offset patch =>
        obtain ⟨rfl, beyond⟩ := past
        have whole : calls = before ++ .write offset #[] :: (rest ++ calls.drop n) := by
          rw [← List.cons_append, ← List.append_assoc, ← cut, List.take_append_drop]
        have within := inside before offset _ whole
        omega
      | _ => exact past
    obtain ⟨answers', last'⟩ := performAll_of_image atMemory (prefix_small n) noneEmptyPast
    exact ⟨answers.trans answers'.symm, last.trans last'.symm⟩

/-- Two bytes under one name. A write past the end fills the gap on both, and a read is cut at the same end; an empty
write past the end is kept by the image only, whose size is then no longer that of the file. -/
theorem empty_write_past_end :
    let fs : HostFiles := { root := none, directories := [], files := [(["a"], #[1, 2])] }
    let images := MemoryImages.empty.install "a" #[1, 2]
    let medium : Handle := { name := "a", readOnly := false }
    let filled : List MediumCall := [.write 3 #[9], .write 2 #[], .read 1 #[7, 7, 7, 7], .isEmpty]
    let grown : List MediumCall := [.write 4 #[], .length]
    (performAll medium filled fs).1 = [.ok .done, .ok .done, .ok (.filled 3 #[2, 0, 9, 7]), .ok (.empty false)] ∧
      (performAll medium filled images).1 = (performAll medium filled fs).1 ∧
      (performAll medium grown fs).1 = [.ok .done, .ok (.size 2)] ∧
      (performAll medium grown images).1 = [.ok .done, .ok (.size 4)] ∧
      ¬ ∀ n, (performAll medium (grown.take n) fs).1 = (performAll medium (grown.take n) images).1 ∧
        MediaStore.contents? "a" (performAll medium (grown.take n) fs).2 =
          MediaStore.contents? "a" (performAll medium (grown.take n) images).2 := by
  intro fs images medium filled grown
  have names : "a".splitOn "/" = ["a"] := by
    rw [String.splitOn, if_neg (by decide), String.splitOnAux, if_neg (by decide +kernel), if_neg (by decide +kernel),
      String.splitOnAux, if_pos (by decide +kernel)]
    decide +kernel
  have onHost : fs.contents? "a" = some #[1, 2] := by
    have start : HostFiles.Place.start "a" = .relative 0 [] := by decide +kernel
    simp only [HostFiles.contents?, HostFiles.lookup, HostFiles.resolve, HostFiles.walk, names, start, fs]
    decide +kernel
  have inMemory : images.image? "a" = some #[1, 2] := by decide +kernel
  have small : ∀ call ∈ filled, call.Small := by decide +kernel
  have small' : ∀ call ∈ grown, call.Small := by decide +kernel
  obtain ⟨-, -, regular, -, agree⟩ := image_stands_in_iff onHost inMemory filled small
  obtain ⟨-, -, regular', -, agree'⟩ := image_stands_in_iff onHost inMemory grown small'
  have inside : ∀ before offset after, filled = before ++ .write offset #[] :: after →
      offset.toNat ≤ (onFile before #[1, 2]).2.size := by
    intro before offset after cut
    rcases before with _ | ⟨first, _ | ⟨second, _ | ⟨third, _ | ⟨fourth, more⟩⟩⟩⟩ <;> simp [filled] at cut
    obtain ⟨rfl, rfl, rfl⟩ := cut
    decide +kernel
  refine ⟨?_, ?_, ?_, ?_, ?_⟩
  · exact (regular 4).1
  · exact ((agree.mpr inside) 4).1.symm
  · exact (regular' 2).1
  · decide +kernel
  · rw [agree']
    intro within
    exact absurd (within [] 4 [.length] rfl) (by decide)

end Peripheral
