import Peripheral.Storage.Faults
import Peripheral.Storage.HostFiles
import Peripheral.Storage.MemoryImages

/-!
# Where media change

A write changes bytes of its medium up to the end of what it writes, whether it succeeds or not. No other
call on an opened medium changes a byte, and none gives more bytes than it was asked for.

* `MediaStore.byte?` : the byte of a name at an index;
* `MediaStore.SameFrom` : from an index on, all bytes are the same (`SameFrom.trans`, `SameFrom.mono`);
* `MediaStore.Local` : collections whose calls change no more than this;
* **images in memory, media that fail, and files of the host are such collections.**
-/

namespace Peripheral

namespace MediaStore

variable {σ : Type} [MediaStore σ]

def byte? (name : String) (i : Nat) (store : σ) : Option UInt8 := (contents? name store).bind (·[i]?)

/-- From an index on, both collections hold the same bytes under every name. -/
def SameFrom (limit : Nat) (s t : σ) : Prop := ∀ name i, limit ≤ i → byte? name i t = byte? name i s

variable {limit more : Nat} {s t u : σ}

theorem SameFrom.refl (limit : Nat) (s : σ) : SameFrom limit s s := fun _ _ _ => rfl

theorem SameFrom.trans (first : SameFrom limit s t) (second : SameFrom limit t u) : SameFrom limit s u :=
  fun name i past => (second name i past).trans (first name i past)

theorem SameFrom.mono (same : SameFrom limit s t) (le : limit ≤ more) : SameFrom more s t :=
  fun name i past => same name i (Nat.le_trans le past)

/-- A collection is local if a write changes bytes before its end only, and other calls change none. -/
class Local (σ : Type) [MediaStore σ] : Prop where
  openMedium : ∀ name readOnly (s : σ), SameFrom 0 s (MediaStore.openMedium name readOnly s).2
  length : ∀ medium (s : σ), SameFrom 0 s (MediaStore.length medium s).2
  read : ∀ medium offset count (s : σ), SameFrom 0 s (MediaStore.read medium offset count s).2
  flush : ∀ medium (s : σ), SameFrom 0 s (MediaStore.flush medium s).2
  write : ∀ medium (offset : UInt64) (data : Bytes) (s : σ),
    SameFrom (offset.toNat + data.size) s (MediaStore.write medium offset data s).2
  size_read : ∀ medium offset count (s : σ) data,
    (MediaStore.read medium offset count s).1 = .ok data → data.size ≤ count

end MediaStore

open MediaStore

/-! ## Images in memory -/

namespace MemoryImages

theorem write_sameFrom (medium : Handle) (offset : UInt64) (data : Bytes) (s : MemoryImages) :
    SameFrom (offset.toNat + data.size) s (s.write medium offset data).2 := by
  intro name i past
  unfold write
  dsimp only
  split
  · rfl
  cases there : s.image? medium.name with
  | none =>
    simp only [behind, there]
  | some image =>
    simp only [behind, there]
    split
    · rfl
    show (Named.find? name (s.images.set medium.name (image.overwrite offset.toNat data))).bind (·[i]?) =
      (s.image? name).bind (·[i]?)
    rw [Named.find?_set]
    split
    · rename_i same
      rw [← same, there]
      exact Bytes.getElem?_overwrite_of_le past
    · rfl

instance : MediaStore.Local MemoryImages where
  openMedium _ _ s := .refl 0 s
  length _ s := .refl 0 s
  read _ _ _ s := .refl 0 s
  flush _ s := .refl 0 s
  write := write_sameFrom
  size_read medium offset count s data done := by
    have read : s.read medium offset count = .ok data := done
    unfold MemoryImages.read at read
    cases held : s.behind medium with
    | error status =>
      rw [held] at read
      cases read
    | ok image =>
      rw [held] at read
      cases read
      exact Nat.le_trans Array.size_extract_le (Nat.le_of_eq (Nat.add_sub_cancel_left _ _))

end MemoryImages

/-! ## Media that fail -/

namespace Faulty

variable {σ : Type} [MediaStore σ]

theorem guard_sameFrom {α : Type} {limit : Nat} (medium : Handle) (call : MediaCall)
    {through : σ → Except Status α × σ} (s : Faulty σ)
    (same : MediaStore.SameFrom limit s.media (through s.media).2) :
    MediaStore.SameFrom limit s (s.guard medium call through).2 := by
  unfold guard
  split
  · exact .refl limit s
  · exact same

instance [MediaStore.Local σ] : MediaStore.Local (Faulty σ) where
  openMedium name readOnly s := Local.openMedium name readOnly s.media
  length medium s := guard_sameFrom medium _ s (Local.length medium s.media)
  read medium offset count s := guard_sameFrom medium _ s (Local.read medium offset count s.media)
  flush medium s := guard_sameFrom medium _ s (Local.flush medium s.media)
  write medium offset data s := guard_sameFrom medium _ s (Local.write medium offset data s.media)
  size_read medium offset count s data done := by
    have read : (s.guard medium .read (MediaStore.read medium offset count)).1 = .ok data := done
    unfold guard at read
    split at read
    · cases read
    · exact Local.size_read medium offset count s.media data read

end Faulty

/-! ## Files of the host -/

namespace HostFiles

theorem fileAt?_setFile (names other : List String) (data : Bytes) (fs : HostFiles) :
    (fs.setFile names data).fileAt? other = if names = other then some data else fs.fileAt? other := by
  unfold fileAt? setFile
  rw [List.find?_cons]
  by_cases same : names = other
  · simp [same]
  · have passed : (fun f : List String × Bytes => decide ((f.1 != names) = true ∧ (f.1 == other) = true)) =
        fun f => f.1 == other := by
      funext f
      by_cases here : f.1 = other
      · simp [here, Ne.symm same]
      · simp [here]
    rw [List.find?_filter, passed, beq_false_of_ne same, if_neg same]

variable {fs : HostFiles} {names : List String} {old : Bytes} (data : Bytes)

/-- Where a file is replaced, no file and no directory comes or goes. -/
theorem node?_setFile (there : fs.fileAt? names = some old) (place : Place) :
    (fs.setFile names data).node? place =
      match fs.node? place with
      | some (.file kept) => some (.file (if names = place.names then data else kept))
      | other => other := by
  have files := fileAt?_setFile names place.names data fs
  unfold node?
  split
  · rfl
  · rfl
  rw [files]
  by_cases same : names = place.names
  · rw [← same, if_pos rfl, there]
    simp only [if_pos]
  · rw [if_neg same]
    cases fs.fileAt? place.names with
    | none =>
      show (if place.names ∈ fs.directories then some Node.directory else none) = _
      by_cases there : place.names ∈ fs.directories
      · rw [if_pos there]
      · rw [if_neg there]
    | some kept => simp only [if_neg same]

theorem walk_setFile (there : fs.fileAt? names = some old) (path : String) :
    (fs.setFile names data).walk path = fs.walk path := by
  have steps : (fs.setFile names data).step = fs.step := by
    funext place name
    unfold step
    simp only [node?_setFile data there]
    cases fs.node? place with
    | none => rfl
    | some node =>
      cases node with
      | file kept => rfl
      | directory =>
        dsimp only
        cases fs.node? (place.inside name) with
        | none => rfl
        | some inner => cases inner <;> rfl
  unfold walk
  rw [steps]

/-- Where a file is replaced, a name stands for what it stood for, or for the file that was replaced. -/
theorem contents?_setFile (there : fs.fileAt? names = some old) (name : String) :
    (fs.setFile names data).contents? name = fs.contents? name ∨
      fs.contents? name = some old ∧ (fs.setFile names data).contents? name = some data := by
  have resolved : (fs.setFile names data).resolve name = fs.resolve name := rfl
  unfold contents? lookup
  rw [resolved, walk_setFile data there]
  cases fs.walk (fs.resolve name) with
  | error fault => exact .inl rfl
  | ok place =>
    simp only [bind, Except.bind, node?_setFile data there]
    cases stands : fs.node? place with
    | none => exact .inl rfl
    | some node =>
      cases node with
      | directory => exact .inl rfl
      | file kept =>
        by_cases same : names = place.names
        · have kept_old : kept = old := by
            unfold node? at stands
            split at stands
            · cases stands
            · cases stands
            rw [← same, there] at stands
            cases stands
            rfl
          exact .inr (by simp [same, kept_old])
        · exact .inl (by simp [same])

theorem write_sameFrom (medium : Handle) (offset : UInt64) (data : Bytes) (fs : HostFiles) :
    SameFrom (offset.toNat + data.size) fs (fs.write medium offset data).2 := by
  intro name i past
  unfold write
  split
  · rfl
  split
  · rfl
  split
  · rfl
  split
  · rfl
  rename_i place _
  cases there : fs.fileAt? place.names with
  | none => rfl
  | some old =>
    have stands := contents?_setFile (old.overwrite offset.toNat data) there name
    show ((fs.setFile _ _).contents? name).bind (·[i]?) = (fs.contents? name).bind (·[i]?)
    rcases stands with same | ⟨before, after⟩
    · rw [same]
    · rw [before, after]
      exact Bytes.getElem?_overwrite_of_le past

instance : MediaStore.Local HostFiles where
  openMedium _ _ fs := .refl 0 fs
  length _ fs := .refl 0 fs
  read _ _ _ fs := .refl 0 fs
  flush _ fs := .refl 0 fs
  write := write_sameFrom
  size_read medium offset count fs data done := by
    have read : fs.read medium offset count = .ok data := done
    unfold HostFiles.read at read
    cases held : fs.behind medium with
    | error status =>
      rw [held] at read
      cases read
    | ok node =>
      simp only [held, bind, Except.bind] at read
      split at read
      · cases read
      cases node with
      | file bytes =>
        cases read
        exact Nat.le_trans Array.size_extract_le (Nat.le_of_eq (Nat.add_sub_cancel_left _ _))
      | directory =>
        dsimp only at read
        split at read
        · cases read
          exact Nat.zero_le _
        · cases read

end HostFiles

end Peripheral
