import CrossAssembler.File.Tree
import CrossAssembler.Proofs.File.Storing
import CrossAssembler.Proofs.Outcome

namespace CrossAssembler.FileTree

open Outcome

variable {tree tree' : FileTree} {path : Text} {place : Location} {bytes : List UInt8}

theorem lookup_filter_of_ne {entries : List (Location × Entry)} {other : Location}
    (h : other ≠ place) : (entries.filter (·.1 != place)).lookup other = entries.lookup other := by
  induction entries with
  | nil => rfl
  | cons entry entries ih =>
      obtain ⟨key, e⟩ := entry
      rw [List.filter_cons, List.lookup_cons]
      by_cases hkey : key = place
      · have hother : (other == key) = false := by simpa [hkey] using h
        simp [hkey, ← ih, hkey ▸ hother]
      · simp [hkey, List.lookup_cons, ih]

theorem get?_putFile_self (tree : FileTree) (h : place ≠ []) (bytes : List UInt8) :
    (tree.putFile place bytes).get? place = some (.file bytes) := by
  simp [get?, putFile, h]

theorem get?_putFile_of_ne (tree : FileTree) {other : Location} (h : other ≠ place)
    (bytes : List UInt8) : (tree.putFile place bytes).get? other = tree.get? other := by
  have hkey : (other == place) = false := by simpa using h
  simp only [get?, putFile, List.lookup_cons, hkey, lookup_filter_of_ne h]

theorem enter_of_directories
    (h : ∀ place, tree.get? place = some .directory → tree'.get? place = some .directory)
    {dir next : Location} {name : Text} (henter : tree.enter dir name = .ok next) :
    tree'.enter dir name = .ok next := by
  unfold enter at henter ⊢
  by_cases hidle : Path.isIdle name = true
  · simpa only [if_pos hidle] using henter
  · simp only [if_neg hidle] at henter ⊢
    by_cases hup : name = ['.', '.']
    · simpa only [if_pos hup] using henter
    · simp only [if_neg hup] at henter ⊢
      split at henter
      · simp at henter
      · rename_i hentry
        rw [h _ hentry]
        exact henter
      · simp at henter

theorem walk_of_directories
    (h : ∀ place, tree.get? place = some .directory → tree'.get? place = some .directory)
    {dir dir' : Location} {names : List Text} (hwalk : tree.walk dir names = .ok dir') :
    tree'.walk dir names = .ok dir' := by
  induction names generalizing dir with
  | nil => exact hwalk
  | cons name names ih =>
      simp only [walk, List.foldlM_cons, bind_eq_ok] at hwalk ⊢
      obtain ⟨next, henter, hwalk⟩ := hwalk
      exact ⟨next, enter_of_directories h henter, ih hwalk⟩

structure CreatesAt (tree : FileTree) (path : Text) (dir : Location) (name : Text) : Prop where
  path_ne_nil : path ≠ []
  unslashed : path.getLast? ≠ some '/'
  walk : tree.walk (tree.origin path) (Path.pieces path).dropLast = .ok dir
  last : (Path.pieces path).getLastD [] = name
  named : (Path.isIdle name || name == ['.', '.']) = false
  entry : tree.get? (dir ++ [name]) ≠ some .directory

theorem createAt_eq_ok_iff : tree.createAt path = .ok place ↔
    ∃ dir name, place = dir ++ [name] ∧ tree.CreatesAt path dir name := by
  unfold createAt
  constructor
  · intro h
    split at h
    · simp at h
    · rename_i hpath
      by_cases hslash : path.getLast? = some '/'
      · simp only [hslash, decide_true, Bool.true_or, if_true] at h
        split at h <;> simp at h
      · simp only [hslash, if_false, decide_false, Bool.false_or] at h
        split at h
        · simp at h
        · rename_i dir hwalk
          split at h
          · simp at h
          · rename_i hname
            split at h
            · simp at h
            · rename_i hentry
              exact ⟨dir, _, (Except.ok.inj h).symm, by simpa using hpath, hslash, hwalk, rfl,
                by simpa using hname, hentry⟩
  · rintro ⟨dir, name, rfl, h⟩
    have hpath : path.isEmpty = false := by simpa using h.path_ne_nil
    simp only [hpath, h.unslashed, h.walk, h.last, h.named, h.entry, decide_false, Bool.false_or,
      Bool.false_eq_true, if_false]

theorem createAt_putFile (h : tree.createAt path = .ok place) (bytes : List UInt8) :
    (tree.putFile place bytes).createAt path = .ok place := by
  obtain ⟨dir, name, rfl, hcreates⟩ := createAt_eq_ok_iff.mp h
  have hdirectories : ∀ place, tree.get? place = some .directory →
      (tree.putFile (dir ++ [name]) bytes).get? place = some .directory := by
    intro place hplace
    rwa [tree.get?_putFile_of_ne]
    rintro rfl
    exact hcreates.entry hplace
  have hentry := tree.get?_putFile_self (List.concat_ne_nil name dir) bytes
  exact createAt_eq_ok_iff.mpr ⟨dir, name, rfl, hcreates.path_ne_nil, hcreates.unslashed,
    walk_of_directories hdirectories hcreates.walk, hcreates.last, hcreates.named, by simp [hentry]⟩

theorem ne_nil_of_createAt (h : tree.createAt path = .ok place) : place ≠ [] := by
  obtain ⟨dir, name, rfl, -⟩ := createAt_eq_ok_iff.mp h
  exact List.concat_ne_nil name dir

def regular (tree : FileTree) (place : Location) : Option (List UInt8) :=
  match tree.get? place with
  | some (.file bytes) => some bytes
  | _ => none

def target? (tree : FileTree) (path : Text) : Option (Files.Target Location) :=
  match tree.createAt path with
  | .error _ => none
  | .ok place =>
      match tree.get? place with
      | some (.file _) => some (.file place)
      | some .fullDevice => some .device
      | _ => none

theorem regular_putFile_self (tree : FileTree) (h : place ≠ []) (bytes : List UInt8) :
    (tree.putFile place bytes).regular place = some bytes := by
  simp [regular, tree.get?_putFile_self h]

theorem regular_putFile_of_ne (tree : FileTree) {other : Location} (h : other ≠ place)
    (bytes : List UInt8) : (tree.putFile place bytes).regular other = tree.regular other := by
  simp [regular, tree.get?_putFile_of_ne h]

theorem target?_putFile (h : tree.createAt path = .ok place) (bytes : List UInt8) :
    (tree.putFile place bytes).target? path = some (.file place) := by
  simp [target?, createAt_putFile h, tree.get?_putFile_self (ne_nil_of_createAt h)]

theorem create_cases {created : Except String Location}
    (h : (access.create path).run tree = (created, tree')) :
    (tree' = tree ∧ ∃ cause, created = .error cause) ∨
      ∃ place, created = .ok place ∧ tree.createAt path = .ok place ∧
        (tree' = tree ∧ tree.get? place = some .fullDevice ∨ tree' = tree.putFile place []) := by
  obtain ⟨rfl, rfl⟩ := Prod.mk.inj h
  unfold create
  split
  · exact .inl ⟨rfl, _, rfl⟩
  · rename_i place hplace
    split
    · rename_i hdevice
      exact .inr ⟨place, rfl, hplace, .inl ⟨rfl, hdevice⟩⟩
    · exact .inr ⟨place, rfl, hplace, .inr rfl⟩

theorem created_cases (h : (access.create path).run tree = (.ok place, tree')) :
    (tree' = tree ∧ tree.get? place = some .fullDevice ∧ tree.target? path = some .device) ∨
      (tree' = tree.putFile place [] ∧ place ≠ [] ∧ tree'.createAt path = .ok place ∧
        tree'.target? path = some (.file place)) := by
  rcases create_cases h with ⟨-, cause, herror⟩ | ⟨_, hplace, hat, hcreated⟩
  · simp at herror
  · obtain rfl := Except.ok.inj hplace
    rcases hcreated with ⟨rfl, hdevice⟩ | rfl
    · refine .inl ⟨rfl, hdevice, ?_⟩
      simp [target?, hat, hdevice]
    · exact .inr ⟨rfl, ne_nil_of_createAt hat, createAt_putFile hat [], target?_putFile hat []⟩

theorem run_write_of_device {written : Except String Unit} (h : tree.get? place = some .fullDevice)
    (hwrite : (access.write place bytes).run tree = (written, tree')) : tree' = tree := by
  obtain ⟨-, rfl⟩ := Prod.mk.inj hwrite
  simp [write, h]

theorem run_write_of_created {written : Except String Unit} (h : place ≠ [])
    (hwrite : (access.write place bytes).run (tree.putFile place []) = (written, tree')) :
    written = .ok () ∧ tree' = (tree.putFile place []).putFile place bytes := by
  obtain ⟨rfl, rfl⟩ := Prod.mk.inj hwrite
  simp [write, get?_putFile_self tree h, Except.mapError]

theorem access_sound : access.Sound regular target? where
  fetch_keeps h := by
    obtain ⟨-, rfl⟩ := Prod.mk.inj h
    rfl
  isDirectory_keeps h := by
    obtain ⟨-, rfl⟩ := Prod.mk.inj h
    rfl
  create_error h := by
    rcases create_cases h with ⟨rfl, -⟩ | ⟨place, hplace, -⟩
    · rfl
    · simp at hplace
  create_target h := by
    rcases created_cases h with ⟨rfl, -, hdevice⟩ | ⟨rfl, -, -, hfile⟩
    · simp [hdevice]
    · simp [hfile]
  create_file h hplace := by
    rcases created_cases h with ⟨rfl, -, hdevice⟩ | ⟨rfl, hne, -, hfile⟩
    · simp [hdevice] at hplace
    · obtain rfl := Files.Target.file.inj (Option.some.inj (hfile.symm.trans hplace))
      exact regular_putFile_self _ hne []
  create_others h hother := by
    rcases created_cases h with ⟨rfl, -⟩ | ⟨rfl, -, -, hfile⟩
    · rfl
    · rw [hfile] at hother
      exact regular_putFile_of_ne _ (fun heq => hother (by rw [heq])) []
  write_target h hwrite := by
    rcases created_cases h with ⟨rfl, hdevice, -⟩ | ⟨rfl, hne, hat, hfile⟩
    · rw [run_write_of_device hdevice hwrite]
    · obtain ⟨-, rfl⟩ := run_write_of_created hne hwrite
      rw [hfile]
      exact target?_putFile hat _
  write_file h hwrite hplace := by
    rcases created_cases h with ⟨rfl, -, hdevice⟩ | ⟨rfl, hne, -, hfile⟩
    · simp [hdevice] at hplace
    · obtain rfl := Files.Target.file.inj (Option.some.inj (hfile.symm.trans hplace))
      obtain ⟨hwritten, rfl⟩ := run_write_of_created hne hwrite
      rw [regular_putFile_self _ hne, regular_putFile_self _ hne]
      exact ⟨hwritten, rfl⟩
  write_others h hwrite hother := by
    rcases created_cases h with ⟨rfl, hdevice, -⟩ | ⟨rfl, hne, -, hfile⟩
    · rw [run_write_of_device hdevice hwrite]
    · rw [hfile] at hother
      obtain ⟨-, rfl⟩ := run_write_of_created hne hwrite
      exact regular_putFile_of_ne _ (fun heq => hother (by rw [heq])) _

end CrossAssembler.FileTree
