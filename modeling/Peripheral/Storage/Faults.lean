import Peripheral.Storage.Media

/-!
# Media that fail

A collection of media behind a plan of faults: a call that the plan names for a medium fails before
the medium is touched, every other call goes through.
-/

namespace Peripheral

/-- A collection of media with the calls that fail, by name. -/
structure Faulty (σ : Type) where
  plan : Named (List MediaCall)
  media : σ
deriving Repr, Inhabited

namespace Faulty

variable {σ : Type}

def fails (s : Faulty σ) (name : String) (call : MediaCall) : Bool :=
  ((s.plan.find? name).getD []).contains call

def guard {α : Type} (medium : Handle) (call : MediaCall)
    (through : σ → Except Status α × σ) (s : Faulty σ) : Except Status α × Faulty σ :=
  if s.fails medium.name call then (.error (.io (.injected call)), s)
  else
    let (answer, media) := through s.media
    (answer, { s with media })

instance [MediaStore σ] : MediaStore (Faulty σ) where
  openMedium name readOnly s :=
    let (answer, media) := MediaStore.openMedium name readOnly s.media
    (answer, { s with media })
  length medium s := s.guard medium .length (MediaStore.length medium)
  read medium offset count s := s.guard medium .read (MediaStore.read medium offset count)
  write medium offset data s := s.guard medium .write (MediaStore.write medium offset data)
  flush medium s := s.guard medium .flush (MediaStore.flush medium)
  contents? name s := MediaStore.contents? name s.media
  install name data s := { s with media := MediaStore.install name data s.media }
  writeCount? name s := MediaStore.writeCount? name s.media

end Faulty

end Peripheral
