import CrossAssembler.Files
import CrossAssembler.Proofs.Outcome

namespace CrossAssembler.Files

open Outcome

inductive Target (ρ : Type) where
  | file (place : ρ)
  | device
deriving DecidableEq, Repr

variable {σ η ρ : Type}

-- What is relied on: only a creation that succeeds, and the write after it, touch a regular file,
-- and then the one that the path leads to. A write can fail on a device alone.
structure Sound (files : Files (StateM σ) η) (regular : σ → ρ → Option (List UInt8))
    (target? : σ → Text → Option (Target ρ)) : Prop where
  fetch_keeps : ∀ {path : Text} {s t : σ} {fetched : Fetched},
    (files.fetch path).run s = (fetched, t) → regular t = regular s
  isDirectory_keeps : ∀ {path : Text} {s t : σ} {found : Bool},
    (files.isDirectory path).run s = (found, t) → regular t = regular s
  create_error : ∀ {path : Text} {s t : σ} {cause : String},
    (files.create path).run s = (.error cause, t) → regular t = regular s
  create_target : ∀ {path : Text} {s t : σ} {handle : η},
    (files.create path).run s = (.ok handle, t) → target? t path ≠ none
  create_file : ∀ {path : Text} {s t : σ} {handle : η} {place : ρ},
    (files.create path).run s = (.ok handle, t) → target? t path = some (.file place) →
    regular t place = some []
  create_others : ∀ {path : Text} {s t : σ} {handle : η} {other : ρ},
    (files.create path).run s = (.ok handle, t) → target? t path ≠ some (.file other) →
    regular t other = regular s other
  write_target : ∀ {path : Text} {s t u : σ} {handle : η} {bytes : List UInt8}
    {written : Except String Unit},
    (files.create path).run s = (.ok handle, t) →
    (files.write handle bytes).run t = (written, u) → target? u path = target? t path
  write_file : ∀ {path : Text} {s t u : σ} {handle : η} {bytes : List UInt8}
    {written : Except String Unit} {place : ρ},
    (files.create path).run s = (.ok handle, t) →
    (files.write handle bytes).run t = (written, u) → target? t path = some (.file place) →
    written = .ok () ∧ regular u place = (regular t place).map (· ++ bytes)
  write_others : ∀ {path : Text} {s t u : σ} {handle : η} {bytes : List UInt8}
    {written : Except String Unit} {other : ρ},
    (files.create path).run s = (.ok handle, t) →
    (files.write handle bytes).run t = (written, u) → target? t path ≠ some (.file other) →
    regular u other = regular t other

structure Receives (regular : σ → ρ → Option (List UInt8))
    (target? : σ → Text → Option (Target ρ)) (path : Text) (bytes : List UInt8) (s t : σ) :
    Prop where
  content : target? t path = some .device ∨
    ∃ place, target? t path = some (.file place) ∧ regular t place = some bytes
  others : ∀ other, target? t path ≠ some (.file other) → regular t other = regular s other

variable {files : Files (StateM σ) η} {regular : σ → ρ → Option (List UInt8)}
  {target? : σ → Text → Option (Target ρ)} {path : Text} {bytes : List UInt8} {s t : σ}

theorem Receives.target_ne_none (h : Receives regular target? path bytes s t) :
    target? t path ≠ none := by
  rcases h.content with hdevice | ⟨place, hplace, -⟩
  · simp [hdevice]
  · simp [hplace]

def Writes (files : Files (StateM σ) η) (path : Text) (bytes : List UInt8) (s t : σ) : Prop :=
  ∃ u v handle,
    (if Path.parent path = [] then u = s
      else (files.isDirectory (Path.parent path)).run s = (true, u)) ∧
    (files.create path).run u = (.ok handle, v) ∧ (files.write handle bytes).run v = (.ok (), t)

theorem hasParent_eq_true_iff : (files.hasParent path).run s = (true, t) ↔
    if Path.parent path = [] then t = s
      else (files.isDirectory (Path.parent path)).run s = (true, t) := by
  unfold hasParent
  by_cases hparent : Path.parent path = []
  · simp only [hparent, List.isEmpty_nil, if_true]
    exact ⟨fun h => (Prod.mk.inj h).2.symm, fun h => by rw [h]; rfl⟩
  · have hempty : (Path.parent path).isEmpty = false := by simpa using hparent
    simp [hparent, hempty]

theorem store_cases {result : Except StoreError Unit}
    (h : (files.store path bytes).run s = (result, t)) :
    ((files.hasParent path).run s = (false, t) ∧
        result = .error (.missingDirectory (Path.parent path))) ∨
      ∃ u, (files.hasParent path).run s = (true, u) ∧
        ((∃ cause, (files.create path).run u = (.error cause, t) ∧
            result = .error (.create cause)) ∨
          ∃ handle v written, (files.create path).run u = (.ok handle, v) ∧
            (files.write handle bytes).run v = (written, t) ∧
            result = written.mapError .write) := by
  unfold store at h
  rcases hfound : (files.hasParent path).run s with ⟨_ | _, u⟩
  · rw [run_bind_of_run_eq hfound] at h
    obtain ⟨rfl, rfl⟩ := Prod.mk.inj h
    exact .inl ⟨rfl, rfl⟩
  · rw [run_bind_of_run_eq hfound] at h
    simp only [Bool.not_true, Bool.false_eq_true, if_false] at h
    refine .inr ⟨u, rfl, ?_⟩
    rcases hcreated : (files.create path).run u with ⟨cause | handle, v⟩
    · rw [run_bind_of_run_eq hcreated] at h
      obtain ⟨rfl, rfl⟩ := Prod.mk.inj h
      exact .inl ⟨cause, rfl, rfl⟩
    · rw [run_bind_of_run_eq hcreated] at h
      obtain ⟨rfl, rfl⟩ := Prod.mk.inj h
      exact .inr ⟨handle, v, _, rfl, rfl, rfl⟩

theorem store_eq_ok_iff :
    (files.store path bytes).run s = (.ok (), t) ↔ files.Writes path bytes s t := by
  constructor
  · intro h
    rcases store_cases h with ⟨-, hresult⟩ | ⟨u, hfound, ⟨cause, -, hresult⟩ |
      ⟨handle, v, written, hcreated, hwrite, hresult⟩⟩
    · simp at hresult
    · simp at hresult
    · obtain rfl := mapError_eq_ok.mp hresult.symm
      exact ⟨u, v, handle, hasParent_eq_true_iff.mp hfound, hcreated, hwrite⟩
  · rintro ⟨u, v, handle, hfound, hcreated, hwrite⟩
    unfold store
    rw [run_bind_of_run_eq (hasParent_eq_true_iff.mpr hfound)]
    simp only [Bool.not_true, Bool.false_eq_true, if_false]
    rw [run_bind_of_run_eq hcreated, run_bind_of_run_eq hwrite]
    rfl

namespace Sound

theorem hasParent_keeps (sound : files.Sound regular target?) {found : Bool}
    (h : (files.hasParent path).run s = (found, t)) : regular t = regular s := by
  unfold hasParent at h
  dsimp only at h
  split at h
  · obtain ⟨-, rfl⟩ := Prod.mk.inj h
    rfl
  · exact sound.isDirectory_keeps h

theorem store_error (sound : files.Sound regular target?) {e : StoreError}
    (h : (files.store path bytes).run s = (.error e, t)) : regular t = regular s := by
  rcases store_cases h with ⟨hfound, -⟩ | ⟨u, hfound, ⟨cause, hcreated, -⟩ |
    ⟨handle, v, written, hcreated, hwrite, hresult⟩⟩
  · exact sound.hasParent_keeps hfound
  · rw [sound.create_error hcreated, sound.hasParent_keeps hfound]
  · -- A write fails on no regular file, so the path leads to none.
    have hnone : ∀ place, target? v path ≠ some (.file place) := by
      intro place hplace
      rw [(sound.write_file hcreated hwrite hplace).1] at hresult
      simp [Except.mapError] at hresult
    funext place
    rw [sound.write_others hcreated hwrite (hnone place),
      sound.create_others hcreated (hnone place), sound.hasParent_keeps hfound]

theorem receives (sound : files.Sound regular target?) (h : files.Writes path bytes s t) :
    Receives regular target? path bytes s t := by
  obtain ⟨u, v, handle, hfound, hcreated, hwrite⟩ := h
  have hparent := sound.hasParent_keeps (hasParent_eq_true_iff.mpr hfound)
  have htarget := sound.write_target hcreated hwrite
  constructor
  · rw [htarget]
    cases hv : target? v path with
    | none => exact absurd hv (sound.create_target hcreated)
    | some target =>
        cases target with
        | device => exact .inl rfl
        | file place =>
            refine .inr ⟨place, rfl, ?_⟩
            rw [(sound.write_file hcreated hwrite hv).2, sound.create_file hcreated hv]
            rfl
  · intro other hother
    rw [htarget] at hother
    rw [sound.write_others hcreated hwrite hother, sound.create_others hcreated hother, hparent]

end Sound

end CrossAssembler.Files
