import FuzzCampaign.CommandLine.Merging
import FuzzCampaign.Scripted.Disk
import Mathlib.Tactic.SplitIfs

/-!
# Worlds with files

What a command comes to in a world with files, in which a file keeps what is written into it until
something else is.

* `CommandAction.outcome`: what a command comes to;
* `CommandHost.contents`, `CommandHost.Holds`: what a file holds;
* `FileLaws`: what is relied on; `Disk.fileLaws`: a disk in memory is such a world.
-/

namespace FuzzCampaign

/-! ## Outcomes of commands -/

namespace CommandAction

variable {σ α β : Type}

/-- The outcome of a command and the state of the world after it. -/
def outcome (act : CommandAction (StateM σ) α) (s : σ) : Except CommandStop α × σ := act.run.run s

@[simp] theorem outcome_pure (a : α) (s : σ) :
    outcome (pure a : CommandAction (StateM σ) α) s = (.ok a, s) := rfl

@[simp] theorem outcome_throw (stop : CommandStop) (s : σ) :
    outcome (throw stop : CommandAction (StateM σ) α) s = (.error stop, s) := rfl

@[simp] theorem outcome_ask (q : StateM σ α) (s : σ) :
    outcome (ask q) s = (.ok (q.run s).1, (q.run s).2) := rfl

theorem outcome_bind (act : CommandAction (StateM σ) α) (f : α → CommandAction (StateM σ) β)
    (s : σ) : outcome (act >>= f) s = match outcome act s with
      | (.ok a, s') => outcome (f a) s'
      | (.error stop, s') => (.error stop, s') := by
  change (ExceptT.bindCont f (act.run.run s).1).run (act.run.run s).2 = _
  unfold outcome
  rcases act.run.run s with ⟨_ | a, s'⟩ <;> rfl

end CommandAction

/-! ## Files -/

section

variable {σ : Type} (host : CommandHost (StateM σ))

/-- What is read from a file. -/
def CommandHost.contents (s : σ) (path : String) : Except String (List UInt8) :=
  ((host.fileBytes path).run s).1

/-- A file holds coverage. -/
def CommandHost.Holds (s : σ) (path : String) (c : Coverage) : Prop :=
  ∃ bytes, host.contents s path = .ok bytes ∧ Coverage.ofFileBytes bytes = .ok c

/-- A world in which files keep what is written into them. -/
structure FileLaws where
  /-- Writing into one of two paths does not change what is read from the other. -/
  apart : String → String → Prop
  /-- A file can be written at a path. -/
  writable : σ → String → Prop
  apart_symm : ∀ {path other}, apart path other → apart other path
  contents_read : ∀ s path other,
    host.contents ((host.fileBytes path).run s).2 other = host.contents s other
  writable_read : ∀ {s} path {other}, writable s other →
    writable ((host.fileBytes path).run s).2 other
  write_ok : ∀ {s path} text, writable s path → ((host.writeFile path text).run s).1 = .ok ()
  contents_write : ∀ {s path} text, writable s path →
    host.contents ((host.writeFile path text).run s).2 path = .ok (Utf8.encode text.toList)
  contents_write_apart : ∀ {s path other bytes} text, writable s path → apart path other →
    host.contents s other = .ok bytes →
    host.contents ((host.writeFile path text).run s).2 other = .ok bytes
  writable_write : ∀ {s path other} text, writable s path → writable s other →
    writable ((host.writeFile path text).run s).2 other

end

/-! ### A disk -/

namespace Disk

theorem walk_cons (d : Disk) (above : DiskPath) (part next : String) (path : DiskPath) :
    d.walk above (part :: next :: path) =
      if d.isDirectory (above ++ [part]) then d.walk (above ++ [part]) (next :: path)
      else if (d.file? (above ++ [part])).isSome then .error .notDirectory
      else .error .noEntry := by
  rw [walk]
  exact nofun

/-- A path that can be walked through directories can be walked wherever these are. -/
theorem walk_of_directories {d d' : Disk} (h : d'.directories = d.directories)
    {path above : DiskPath} (hwalk : d.walk above path = .ok ()) : d'.walk above path = .ok () := by
  induction path generalizing above with
  | nil => rfl
  | cons part path ih =>
    cases path with
    | nil => rfl
    | cons next path =>
      have hdirectory : d'.isDirectory (above ++ [part]) = d.isDirectory (above ++ [part]) := by
        rw [isDirectory, isDirectory, h]
      rw [walk_cons] at hwalk ⊢
      rw [hdirectory]
      split_ifs at hwalk ⊢
      exact ih hwalk

/-- Whether a file can be written at a path. -/
def Writable (d : Disk) (path : DiskPath) : Prop :=
  d.walk [] path = .ok () ∧ path ≠ [] ∧ d.isDirectory path = false

/-- The disk with the bytes of a file replaced. -/
def put (d : Disk) (path : DiskPath) (bytes : List UInt8) : Disk :=
  { d with files := d.files.filter (fun f => f.1 ≠ path) ++ [(path, bytes)] }

variable {d : Disk} {path other : DiskPath}

theorem walk_put (h : d.walk [] other = .ok ()) (path : DiskPath) (bytes : List UInt8) :
    (d.put path bytes).walk [] other = .ok () := by
  have hdirectories : (d.put path bytes).directories = d.directories := rfl
  exact walk_of_directories hdirectories h

theorem write_of_writable (h : d.Writable path) (bytes : List UInt8) :
    d.write path bytes = .ok (d.put path bytes) := by
  obtain ⟨hwalk, hne, hdirectory⟩ := h
  rw [write, hwalk]
  simp [hne, hdirectory, bind, Except.bind, pure, Except.pure, put]

theorem Writable.put (h : d.Writable other) (path : DiskPath) (bytes : List UInt8) :
    (d.put path bytes).Writable other :=
  ⟨walk_put h.1 path bytes, h.2⟩

theorem bytes_put (h : d.Writable path) (bytes : List UInt8) :
    (d.put path bytes).bytes path = .ok bytes := by
  obtain ⟨hwalk, hne, hdirectory⟩ := h.put path bytes
  have hnone : (d.files.filter (fun f => f.1 ≠ path)).find? (fun f => f.1 = path) = none := by
    simp [List.find?_eq_none]
  have hfile : (d.put path bytes).file? path = some bytes := by
    rw [file?, Disk.put, List.find?_append, hnone]
    simp
  rw [Disk.bytes, hwalk]
  simp [hdirectory, hfile, bind, Except.bind, pure, Except.pure]

theorem file?_put (hne : path ≠ other) (bytes : List UInt8) :
    (d.put path bytes).file? other = d.file? other := by
  have hlast : [(path, bytes)].find? (fun f => f.1 = other) = none := by simp [hne]
  rw [file?, file?, Disk.put, List.find?_append, hlast, Option.or_none, List.find?_filter]
  congr 2
  funext f
  by_cases hf : f.1 = other <;> simp [hf, hne.symm]

theorem bytes_put_of_ne (hne : path ≠ other) (bytes : List UInt8) {bytes' : List UInt8}
    (h : d.bytes other = .ok bytes') : (d.put path bytes).bytes other = .ok bytes' := by
  rw [Disk.bytes] at h ⊢
  rw [file?_put hne]
  have hdirectory : (d.put path bytes).isDirectory other = d.isDirectory other := rfl
  rw [hdirectory]
  cases hwalk : d.walk [] other with
  | error e =>
    rw [hwalk] at h
    contradiction
  | ok _ =>
    rw [hwalk] at h
    rw [walk_put hwalk]
    exact h

theorem run_writeFile {path text : String} (h : d.Writable (parts path)) :
    (host.writeFile path text).run d = (.ok (), d.put (parts path) (Utf8.encode text.toList)) := by
  change (orRefuse (d.write (parts path) (Utf8.encode text.toList))).run d = _
  rw [write_of_writable h]
  rfl

/-- On a disk files keep what is written into them. -/
def fileLaws : FileLaws host where
  apart path other := parts path ≠ parts other
  writable d path := d.Writable (parts path)
  apart_symm h := h.symm
  contents_read _ _ _ := rfl
  writable_read _ _ h := h
  write_ok text h := by rw [run_writeFile h]
  contents_write text h := by
    rw [run_writeFile h]
    change Except.mapError _ (Disk.bytes _ _) = _
    rw [bytes_put h]
    rfl
  contents_write_apart {d path other bytes} text h hne hbytes := by
    rw [run_writeFile h]
    change Except.mapError _ (Disk.bytes _ _) = _
    change Except.mapError _ (d.bytes (parts other)) = _ at hbytes
    cases hread : d.bytes (parts other) with
    | error e =>
      rw [hread] at hbytes
      contradiction
    | ok bytes' =>
      rw [hread] at hbytes
      rw [bytes_put_of_ne hne _ hread]
      exact hbytes
  writable_write text h hother := by
    rw [run_writeFile h]
    exact hother.put _ _

end Disk

end FuzzCampaign
