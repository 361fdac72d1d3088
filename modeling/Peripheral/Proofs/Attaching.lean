import Mathlib.Control.Monad.Basic
import Peripheral.Storage.Endpoint
import Peripheral.Storage.Faults
import Peripheral.Storage.MemoryImages

/-!
# Attaching and detaching on media that may fail

Nothing is assumed of the media: each call on them may answer what it likes, or fail. What they are
asked is seen by watching them.

* `Watched` : media with a log of the calls made on them; watching changes nothing
  (`attach_watched`, `detach_watched`);
* `Endpoint.Handled` : the endpoints that come up when a unit is attached, read, written and detached in
  any order; all of them are `Endpoint.Sound`;
* `attach_detach_on_any_media` : **a failed attachment changes nothing, and a unit that is detached ends
  up detached**: what it has not saved is written once and flushed if that went well, and it fails just
  when one of these does.
-/

namespace Peripheral

/-! ## Media that are watched -/

/-- A call on media; writes and flushes with their answers. -/
inductive Access where
  | opened (name : String) (readOnly : Bool)
  | measured (medium : Handle)
  | looked (medium : Handle) (offset : UInt64) (count : Nat)
  | written (medium : Handle) (offset : UInt64) (data : Bytes) (answer : Result)
  | flushed (medium : Handle) (answer : Result)

def Access.Alters : Access → Prop
  | .written .. | .flushed .. => True
  | .opened .. | .measured _ | .looked .. => False

/-- Media with the calls made on them so far. -/
structure Watched (σ : Type) where
  media : σ
  log : List Access

namespace Watched

variable {σ : Type}

def start (media : σ) : Watched σ := ⟨media, []⟩

/-- Answer as the media do and keep a record of it. -/
def pass {α : Type} (access : α → Access) (call : σ → α × σ) (s : Watched σ) : α × Watched σ :=
  let (answer, media) := call s.media
  (answer, ⟨media, s.log ++ [access answer]⟩)

instance [MediaStore σ] : MediaStore (Watched σ) where
  openMedium name readOnly :=
    pass (fun _ => .opened name readOnly) (MediaStore.openMedium name readOnly)
  length medium := pass (fun _ => .measured medium) (MediaStore.length medium)
  read medium offset count :=
    pass (fun _ => .looked medium offset count) (MediaStore.read medium offset count)
  write medium offset data :=
    pass (.written medium offset data) (MediaStore.write medium offset data)
  flush medium := pass (.flushed medium) (MediaStore.flush medium)
  contents? name s := MediaStore.contents? name s.media
  install name data s := { s with media := MediaStore.install name data s.media }
  writeCount? name s := MediaStore.writeCount? name s.media

section
variable [MediaStore σ] (s : Watched σ)

theorem openMedium_eq (name : String) (readOnly : Bool) :
    MediaStore.openMedium name readOnly s =
      ((MediaStore.openMedium name readOnly s.media).1,
        ⟨(MediaStore.openMedium name readOnly s.media).2, s.log ++ [.opened name readOnly]⟩) := rfl

theorem write_eq (medium : Handle) (offset : UInt64) (data : Bytes) :
    MediaStore.write medium offset data s =
      ((MediaStore.write medium offset data s.media).1,
        ⟨(MediaStore.write medium offset data s.media).2,
          s.log ++ [.written medium offset data (MediaStore.write medium offset data s.media).1]⟩) :=
  rfl

theorem flush_eq (medium : Handle) :
    MediaStore.flush medium s =
      ((MediaStore.flush medium s.media).1,
        ⟨(MediaStore.flush medium s.media).2,
          s.log ++ [.flushed medium (MediaStore.flush medium s.media).1]⟩) := rfl

end

end Watched

section
variable {σ : Type} [MediaStore σ]

theorem bufferSize_watched (medium : Handle) (e : Endpoint) (s : Watched σ) :
    ∃ calls, (∀ c ∈ calls, ¬c.Alters) ∧
      e.bufferSize medium s =
        ((e.bufferSize medium s.media).1, ⟨(e.bufferSize medium s.media).2, s.log ++ calls⟩) := by
  unfold Endpoint.bufferSize
  by_cases unsized : e.capacity = 0
  · rw [if_pos unsized, if_pos unsized]
    exact ⟨[.measured medium], by simp [Access.Alters], rfl⟩
  · rw [if_neg unsized, if_neg unsized]
    exact ⟨[], by simp, by simp⟩

theorem load_watched (medium : Handle) (e : Endpoint) (s : Watched σ) :
    ∃ calls, (∀ c ∈ calls, ¬c.Alters) ∧
      e.load medium s =
        ((e.load medium s.media).1, ⟨(e.load medium s.media).2.1, s.log ++ calls⟩,
          (e.load medium s.media).2.2) := by
  obtain ⟨calls, looks, sized⟩ := bufferSize_watched medium e s
  unfold Endpoint.load
  rw [sized]
  rcases e.bufferSize medium s.media with ⟨status | size, media⟩
  · exact ⟨calls, looks, rfl⟩
  · dsimp only
    by_cases room : Bytes.allocatable size = true
    · rw [if_pos room, if_pos room]
      refine ⟨calls ++ [.looked medium 0 size], ?_, ?_⟩
      · simpa [Access.Alters, or_imp, forall_and] using looks
      · rw [← List.append_assoc]
        rfl
    · rw [if_neg room, if_neg room]
      exact ⟨calls, looks, rfl⟩

/-- Attaching only looks at media; a failure leaves the unit as it was. -/
theorem attach_watched (name : String) (e : Endpoint) (s : Watched σ) :
    ∃ calls result f media told, e.attach name s.media = (result, f, media, told) ∧
      e.attach name s = (result, f, ⟨media, s.log ++ calls⟩, told) ∧
      (∀ c ∈ calls, ¬c.Alters) ∧ ∀ status, result = .error status → f = e := by
  have nothing : s = ⟨s.media, s.log ++ []⟩ := by rw [List.append_nil]
  unfold Endpoint.attach
  by_cases fixed : (!e.can.attachable) = true
  · rw [if_pos fixed, if_pos fixed]
    exact ⟨[], _, _, _, _, rfl, by rw [← nothing], by simp, fun _ _ => rfl⟩
  rw [if_neg fixed, if_neg fixed]
  by_cases bound : e.isAttached = true
  · rw [if_pos bound, if_pos bound]
    exact ⟨[], _, _, _, _, rfl, by rw [← nothing], by simp, fun _ _ => rfl⟩
  rw [if_neg bound, if_neg bound]
  rw [Watched.openMedium_eq]
  rcases MediaStore.openMedium name e.can.readOnly s.media with ⟨status | medium, media⟩
  · exact ⟨[.opened name e.can.readOnly], _, _, _, _, rfl, rfl, by simp [Access.Alters],
      fun _ _ => rfl⟩
  dsimp only
  by_cases copies : e.can.buffered = true
  · rw [if_pos copies, if_pos copies]
    obtain ⟨calls, looks, loaded⟩ := load_watched medium e
      ⟨media, s.log ++ [.opened name e.can.readOnly]⟩
    rw [loaded]
    have all : ∀ c ∈ Access.opened name e.can.readOnly :: calls, ¬c.Alters := by
      simpa [Access.Alters] using looks
    rcases e.load medium media with ⟨status | buffer, media, told⟩
    · exact ⟨_, _, _, _, _, rfl, by rw [List.append_assoc]; rfl, all, fun _ _ => rfl⟩
    · exact ⟨_, _, _, _, _, rfl, by rw [List.append_assoc]; rfl, all, fun _ failed => nomatch failed⟩
  · rw [if_neg copies, if_neg copies]
    exact ⟨[.opened name e.can.readOnly], _, _, _, _, rfl, rfl, by simp [Access.Alters],
      fun _ failed => nomatch failed⟩

/-! ## What is saved -/

/-- The copy of a medium in memory that has been written and may go back to it. -/
structure Endpoint.Unsaved (e : Endpoint) (a : Attachment) (b : Buffer) : Prop where
  copied : a.buffer = some b
  dirty : a.dirty = true
  writable : e.can.readOnly = false
  marked : 0 < b.highWater

/-- Writing back makes one write, and a flush if that went well. -/
theorem writeBack_watched (medium : Handle) (b : Buffer) (s : Watched σ) :
    ∃ calls result media, Endpoint.writeBack medium b s.media = (result, media) ∧
      Endpoint.writeBack medium b s = (result, ⟨media, s.log ++ calls⟩) ∧
      ((∃ status, result = .error status ∧
          calls = [.written medium 0 (b.data.extract 0 b.highWater) (.error status)]) ∨
        calls = [.written medium 0 (b.data.extract 0 b.highWater) (.ok ()),
          .flushed medium result]) := by
  unfold Endpoint.writeBack
  rw [Watched.write_eq]
  rcases MediaStore.write medium 0 (b.data.extract 0 b.highWater) s.media with ⟨status | _, media⟩
  · exact ⟨_, _, _, rfl, rfl, .inl ⟨status, rfl, rfl⟩⟩
  · refine ⟨_, (MediaStore.flush medium media).1, (MediaStore.flush medium media).2, rfl, ?_,
      .inr rfl⟩
    dsimp only
    rw [Watched.flush_eq, List.append_assoc]
    rfl

/-- A unit that is detached ends up without its medium, whatever happens to what it has to save. -/
theorem detach_watched {e : Endpoint} {a : Attachment} (attachable : e.can.attachable = true)
    (bound : e.attachment = some a) (s : Watched σ) :
    ∃ calls result media told,
      e.detach s.media = (result, { e with attachment := none, position := 0 }, media, told) ∧
      e.detach s =
        (result, { e with attachment := none, position := 0 }, ⟨media, s.log ++ calls⟩, told) ∧
      ((∀ b, ¬e.Unsaved a b) ∧ calls = [] ∧ result = .ok () ∨
        ∃ b, e.Unsaved a b ∧
          ((∃ status, result = .error status ∧
              calls = [.written a.medium 0 (b.data.extract 0 b.highWater) (.error status)]) ∨
            calls = [.written a.medium 0 (b.data.extract 0 b.highWater) (.ok ()),
              .flushed a.medium result])) := by
  have nothing : s = ⟨s.media, s.log ++ []⟩ := by rw [List.append_nil]
  have able : ¬(!e.can.attachable) = true := by simp [attachable]
  unfold Endpoint.detach
  rw [if_neg able, if_neg able, bound]
  dsimp only
  cases copy : a.buffer with
  | none =>
    refine ⟨[], _, _, _, rfl, by rw [← nothing], .inl ⟨fun b unsaved => ?_, rfl, rfl⟩⟩
    rw [unsaved.copied] at copy
    exact nomatch copy
  | some b =>
    dsimp only
    by_cases owed : (a.dirty && !e.can.readOnly && 0 < b.highWater) = true
    · rw [if_pos owed, if_pos owed]
      simp only [Bool.and_eq_true, Bool.not_eq_true', decide_eq_true_eq] at owed
      obtain ⟨⟨dirty, writable⟩, marked⟩ := owed
      obtain ⟨calls, result, media, plain, watched, asked⟩ := writeBack_watched a.medium b s
      rw [plain, watched]
      have unsaved : e.Unsaved a b := ⟨copy, dirty, writable, marked⟩
      cases result with
      | ok _ => exact ⟨calls, _, _, _, rfl, rfl, .inr ⟨b, unsaved, asked⟩⟩
      | error status => exact ⟨calls, _, _, _, rfl, rfl, .inr ⟨b, unsaved, asked⟩⟩
    · rw [if_neg owed, if_neg owed]
      refine ⟨[], _, _, _, rfl, by rw [← nothing], .inl ⟨fun c unsaved => ?_, rfl, rfl⟩⟩
      obtain ⟨copied, dirty, writable, marked⟩ := unsaved
      cases copy.symm.trans copied
      simp [dirty, writable, marked] at owed

/-! ## Sequences of operations -/

/-- A unit copies a medium into memory just if it is buffered, and the bytes below the high-water mark
of a copy are there. -/
structure Endpoint.Sound (e : Endpoint) : Prop where
  copied : ∀ a, e.attachment = some a → a.buffer.isSome = e.can.buffered
  filled : ∀ a b, e.attachment = some a → a.buffer = some b → b.highWater ≤ b.data.size

theorem sound_of_unattached {e : Endpoint} (free : e.attachment = none) : e.Sound where
  copied _ bound := nomatch free.symm.trans bound
  filled _ _ bound := nomatch free.symm.trans bound

omit [MediaStore σ] in
theorem sound_attached {e : Endpoint} {a : Attachment} {position : UInt64}
    (copied : a.buffer.isSome = e.can.buffered)
    (filled : ∀ b, a.buffer = some b → b.highWater ≤ b.data.size) :
    Endpoint.Sound { e with attachment := some a, position } where
  copied _ bound := by
    cases bound
    exact copied
  filled _ b bound := by
    cases bound
    exact filled b

theorem load_filled {medium : Handle} {e : Endpoint} {s media : σ} {b : Buffer}
    {told : List Message} (loaded : e.load medium s = (.ok b, media, told)) :
    b.highWater ≤ b.data.size := by
  unfold Endpoint.load at loaded
  rcases sized : e.bufferSize medium s with ⟨status | size, between⟩
  · rw [sized] at loaded
    exact nomatch loaded
  rw [sized] at loaded
  dsimp only at loaded
  split at loaded
  · rcases looked : MediaStore.read medium 0 size between with ⟨status | data, after⟩
    · rw [looked] at loaded
      exact nomatch loaded
    · rw [looked] at loaded
      cases loaded
      dsimp only
      rw [Bytes.size_padTo]
      exact Nat.le_max_right ..
  · exact nomatch loaded

theorem Endpoint.Sound.attach {e : Endpoint} (h : e.Sound) (name : String) (s : σ) :
    (e.attach name s).2.1.Sound := by
  unfold Endpoint.attach
  split
  · exact h
  split
  · exact h
  rcases MediaStore.openMedium name e.can.readOnly s with ⟨status | medium, media⟩
  · exact h
  dsimp only
  split
  · rename_i copies
    rcases loaded : e.load medium media with ⟨status | buffer, after, told⟩
    · exact h
    · refine sound_attached (by rw [copies]; rfl) fun b is => ?_
      cases is
      exact load_filled loaded
  · rename_i plain
    refine sound_attached ?_ fun b is => nomatch is
    rw [Bool.not_eq_true] at plain
    rw [plain]
    rfl

theorem Endpoint.Sound.detach {e : Endpoint} (h : e.Sound) (s : σ) : (e.detach s).2.1.Sound := by
  by_cases attachable : e.can.attachable = true
  · cases bound : e.attachment with
    | none =>
      unfold Endpoint.detach
      rw [if_neg (by simp [attachable]), bound]
      exact h
    | some a =>
      obtain ⟨_, _, _, _, plain, -⟩ := detach_watched attachable bound (Watched.start s)
      rw [Watched.start] at plain
      rw [plain]
      exact sound_of_unattached rfl
  · unfold Endpoint.detach
    rw [if_pos (by simpa using attachable)]
    exact h

theorem Endpoint.Sound.write {e : Endpoint} (h : e.Sound) (offset : UInt64) (data : Bytes) (s : σ) :
    (e.write offset data s).2.1.Sound := by
  unfold Endpoint.write
  dsimp only
  split
  · exact h
  split
  · exact h
  rename_i a bound
  split
  · exact h
  split
  · exact h
  split
  · rename_i b copy
    split
    · refine sound_attached ?_ fun c is => ?_
      · rw [← h.copied a bound, copy]
        rfl
      · cases is
        dsimp only
        rw [Bytes.size_overwrite]
        have := h.filled a b bound copy
        omega
    · exact h
  · exact h

/-- Endpoints, with their media, that come up when a unit is attached, read, written and detached, well
or not. Others may use the media in between. -/
inductive Endpoint.Handled : Endpoint → σ → Prop
  | unattached {e : Endpoint} {s : σ} : e.attachment = none → Handled e s
  | attach {e : Endpoint} {s : σ} (name : String) : Handled e s →
    Handled (e.attach name s).2.1 (e.attach name s).2.2.1
  | detach {e : Endpoint} {s : σ} : Handled e s → Handled (e.detach s).2.1 (e.detach s).2.2.1
  | read {e : Endpoint} {s : σ} (offset : UInt64) (count : Nat) : Handled e s →
    Handled e (e.read offset count s).2
  | write {e : Endpoint} {s : σ} (offset : UInt64) (data : Bytes) : Handled e s →
    Handled (e.write offset data s).2.1 (e.write offset data s).2.2
  | aside {e : Endpoint} {s t : σ} : Handled e s → Handled e t

theorem Endpoint.Handled.sound {e : Endpoint} {s : σ} (h : e.Handled s) : e.Sound := by
  induction h with
  | unattached free => exact sound_of_unattached free
  | attach name h ih => exact ih.attach name _
  | detach h ih => exact ih.detach _
  | read offset count h ih => exact ih
  | write offset data h ih => exact ih.write offset data _
  | aside h ih => exact ih

/-- However a unit was handled before and however its media behave, attaching it only looks at media,
and a failure leaves all of it as it was. Detaching an attached one always lets its medium go. It makes
no call unless the unit is buffered, was written, may be written and has bytes below the high-water
mark; then all of these bytes are written at the start of the medium by one call, a flush follows just
if that went well, and the failure of one of the two is its only failure. -/
theorem attach_detach_on_any_media {e : Endpoint} {s : σ} (h : e.Handled s) :
    (∀ name, ∃ calls result f media told, e.attach name s = (result, f, media, told) ∧
      e.attach name (Watched.start s) = (result, f, ⟨media, calls⟩, told) ∧
      (∀ c ∈ calls, ¬c.Alters) ∧ ∀ status, result = .error status → f = e) ∧
    (∀ a, e.can.attachable = true → e.attachment = some a →
      a.buffer.isSome = e.can.buffered ∧
      ∃ calls result media told,
        e.detach s = (result, { e with attachment := none, position := 0 }, media, told) ∧
        e.detach (Watched.start s) =
          (result, { e with attachment := none, position := 0 }, ⟨media, calls⟩, told) ∧
        ((∀ b, ¬e.Unsaved a b) ∧ calls = [] ∧ result = .ok () ∨
          ∃ b, e.Unsaved a b ∧ (b.data.extract 0 b.highWater).size = b.highWater ∧
            ((∃ status, result = .error status ∧
                calls = [.written a.medium 0 (b.data.extract 0 b.highWater) (.error status)]) ∨
              calls = [.written a.medium 0 (b.data.extract 0 b.highWater) (.ok ()),
                .flushed a.medium result]))) := by
  refine ⟨fun name => attach_watched name e (Watched.start s), fun a attachable bound =>
    ⟨h.sound.copied a bound, ?_⟩⟩
  obtain ⟨calls, result, media, told, plain, watched, asked⟩ :=
    detach_watched attachable bound (Watched.start s)
  refine ⟨calls, result, media, told, plain, watched, asked.imp_right ?_⟩
  rintro ⟨b, unsaved, asked⟩
  have filled := h.sound.filled a b bound unsaved.copied
  exact ⟨b, unsaved, by rw [Array.size_extract]; omega, asked⟩

end

/-- A medium that cannot be read leaves a buffered unit unattached; one that cannot be written is let go
all the same, after one try to save what was written. -/
theorem attach_detach_on_failing_media :
    ∃ (s : Faulty MemoryImages) (e f : Endpoint),
      (e.attach "r" s).1 = .error (.io (.injected .read)) ∧ (e.attach "r" s).2.1 = e ∧
      (f.detach s).1 = .error (.io (.injected .write)) ∧
      (f.detach s).2.1 = { f with attachment := none, position := 0 } ∧
      (f.detach (Watched.start s)).2.2.1.log =
        [.written ⟨"d", false⟩ 0 #[9, 5, 6, 7] (.error (.io (.injected .write)))] := by
  let s : Faulty MemoryImages :=
    ⟨[("r", [.read]), ("d", [.write])], ⟨[("r", #[1]), ("d", #[9, 9])], []⟩⟩
  let e : Endpoint := { name := "DK0", can := ⟨true, true, false⟩, capacity := 4 }
  let a : Attachment := ⟨⟨"d", false⟩, some ⟨#[9, 5, 6, 7], 4⟩, true⟩
  let f : Endpoint := { e with attachment := some a }
  have fresh : e.Handled s := .unattached rfl
  have handled : f.Handled s := by
    have same : ((e.attach "d" s).2.1.write 1 #[5, 6, 7] s).2.1 = f := by decide +kernel
    exact same ▸ .aside (.write 1 #[5, 6, 7] (.aside (t := s) (.attach "d" fresh)))
  obtain ⟨_, result, g, _, _, plain, -, -, unchanged⟩ := (attach_detach_on_any_media fresh).1 "r"
  have failed : (e.attach "r" s).1 = .error (.io (.injected .read)) := by decide +kernel
  obtain ⟨-, calls, answer, _, _, released, watched, asked⟩ :=
    (attach_detach_on_any_media handled).2 a rfl rfl
  have lost : (f.detach s).1 = .error (.io (.injected .write)) := by decide +kernel
  have once : (f.detach (Watched.start s)).2.2.1.log.length = 1 := by decide +kernel
  refine ⟨s, e, f, failed, ?_, lost, by rw [released], ?_⟩
  · rw [plain] at failed ⊢
    exact unchanged _ failed
  · rw [watched] at once ⊢
    rw [released] at lost
    rcases asked with ⟨-, -, well⟩ | ⟨b, unsaved, -, ⟨status, failed, one⟩ | two⟩
    · cases lost.symm.trans well
    · cases unsaved.copied
      cases lost.symm.trans failed
      exact one
    · rw [two] at once
      exact nomatch once

end Peripheral
