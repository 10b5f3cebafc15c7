/-! A disk whose files are created exclusively. A file is there for everyone from its
creation on, but only a synchronised one outlives a loss of power. -/
namespace Neurobro

structure DiskFile (ι : Type) where
  creator : Option ι
  durable : Bool

def Disk (ν ι : Type) : Type := ν → Option (DiskFile ι)

namespace Disk

variable {ν ι : Type} [DecidableEq ν]

def put (d : Disk ν ι) (name : ν) (file : Option (DiskFile ι)) : Disk ν ι := fun n => if n = name then file else d n

@[simp] theorem put_self (d : Disk ν ι) (name : ν) (file : Option (DiskFile ι)) : d.put name file name = file := if_pos rfl

@[simp] theorem put_other (d : Disk ν ι) {name other : ν} (file : Option (DiskFile ι)) (differ : other ≠ name) :
    d.put name file other = d other := if_neg differ

/-- Of several that create a name, only one does. -/
def createNew (d : Disk ν ι) (i : ι) (name : ν) : Option (Disk ν ι) :=
  match d name with
  | some _ => none
  | none => some (d.put name (some ⟨some i,false⟩))

def sync (d : Disk ν ι) (name : ν) : Disk ν ι := d.put name ((d name).map fun file => { file with durable := true })

/-- What a loss of power leaves: all that was synchronised, and of the rest what happened to be written. -/
def lose (d : Disk ν ι) (survives : ν → Bool) : Disk ν ι := fun name =>
  match d name with
  | some file => if file.durable || survives name then some { file with durable := true } else none
  | none => none

/-- The file that `i` created is there. -/
def Made (d : Disk ν ι) (i : ι) (name : ν) : Prop := ∃ durable, d name = some ⟨some i,durable⟩

/-- It is there to stay. -/
def Kept (d : Disk ν ι) (i : ι) (name : ν) : Prop := d name = some ⟨some i,true⟩

variable {d d' : Disk ν ι} {i j : ι} {name other : ν}

theorem Kept.made (kept : d.Kept i name) : d.Made i name := ⟨true,kept⟩

theorem Made.unique (first : d.Made i name) (second : d.Made j name) : i = j := by
  obtain ⟨_,is_⟩ := first
  obtain ⟨_,is'⟩ := second
  rw [is_] at is'
  simp only [Option.some.injEq,DiskFile.mk.injEq] at is'
  exact is'.1

theorem createNew_eq_some : d.createNew i name = some d' ↔ d name = none ∧ d' = d.put name (some ⟨some i,false⟩) := by
  cases found : d name <;> simp [createNew,found,eq_comm]

theorem made_createNew (took : d.createNew i name = some d') : d'.Made i name := by
  obtain ⟨_,rfl⟩ := createNew_eq_some.mp took
  exact ⟨false,put_self _ _ _⟩

/-- A creation touches no file that is there. -/
theorem createNew_there (took : d.createNew j other = some d') {file : DiskFile ι} (there : d name = some file) :
    d' name = some file := by
  obtain ⟨none_,rfl⟩ := createNew_eq_some.mp took
  rw [put_other _ _ (by rintro rfl; simp [none_] at there),there]

theorem Made.createNew (made : d.Made i name) (took : d.createNew j other = some d') : d'.Made i name := by
  obtain ⟨durable,there⟩ := made
  exact ⟨durable,createNew_there took there⟩

theorem Kept.createNew (kept : d.Kept i name) (took : d.createNew j other = some d') : d'.Kept i name :=
  createNew_there took kept

theorem Made.sync_kept (made : d.Made i name) : (d.sync name).Kept i name := by
  obtain ⟨durable,there⟩ := made
  simp [Kept,sync,there]

theorem Made.sync (made : d.Made i name) (other : ν) : (d.sync other).Made i name := by
  obtain ⟨durable,there⟩ := made
  by_cases same : name = other
  · subst same
    exact (Made.sync_kept ⟨durable,there⟩).made
  · exact ⟨durable,by rw [Disk.sync,put_other _ _ same,there]⟩

theorem Kept.sync (kept : d.Kept i name) (other : ν) : (d.sync other).Kept i name := by
  by_cases same : name = other
  · subst same
    exact kept.made.sync_kept
  · rw [Kept,Disk.sync,put_other _ _ same]
    exact kept

theorem Kept.lose (kept : d.Kept i name) (survives : ν → Bool) : (d.lose survives).Kept i name := by
  have there : d name = some ⟨some i,true⟩ := kept
  simp [Kept,Disk.lose,there]

/-- No file that somebody created goes away. -/
structure Grows (d d' : Disk ν ι) : Prop where
  made : ∀ i name, d.Made i name → d'.Made i name
  kept : ∀ i name, d.Kept i name → d'.Kept i name

theorem Grows.trans {d'' : Disk ν ι} (first : d.Grows d') (second : d'.Grows d'') : d.Grows d'' :=
  ⟨fun i name made => second.made i name (first.made i name made),
    fun i name kept => second.kept i name (first.kept i name kept)⟩

theorem grows_createNew (took : d.createNew j other = some d') : d.Grows d' :=
  ⟨fun _ _ made => made.createNew took,fun _ _ kept => kept.createNew took⟩

theorem grows_sync (d : Disk ν ι) (other : ν) : d.Grows (d.sync other) :=
  ⟨fun _ _ made => made.sync other,fun _ _ kept => kept.sync other⟩

end Disk

end Neurobro
