import Dockstack.Base.KeyMap
import Dockstack.Base.Path

/-!
# A directory of directories

A file tree seen from one root directory: its entries, the entries of its directories,
and below that contents of an arbitrary type that no operation looks into. Paths are
strings that are resolved lexically against the root. The operations answer as Go's `os`
package does on Linux; a write can also fail on its own, before or after the file was
truncated.
-/

namespace Dockstack.Base

/-- A file with its content, or a directory. -/
inductive Entry (D : Type) where
  | file (content : String)
  | dir (content : D)
  deriving DecidableEq

/-- A directory whose subdirectories have content of type `D`. -/
abbrev Folder (D : Type) := KeyMap String (Entry D)

/-- The root directory: its directories are folders. -/
abbrev FileTree (α : Type) := Folder (Folder α)

/-- Where a path leads in the tree. -/
inductive Loc where
  | root
  | top (name : String)
  | inner (name file : String)
  | elsewhere
  deriving DecidableEq

/-- Resolve a path against the root. -/
def locate (root path : String) : Loc :=
  let r := Path.parse root.toList
  let p := Path.parse path.toList
  if p.rooted = r.rooted ∧ p.ups = r.ups ∧ p.names.take r.names.length = r.names then
    match p.names.drop r.names.length with
    | [] => .root
    | [a] => .top (.ofList a)
    | [a, b] => .inner (.ofList a) (.ofList b)
    | _ => .elsewhere
  else .elsewhere

/-- What becomes of a write: it is done, refused at once, or cut off after `n` characters
of a file that was already truncated. -/
inductive WriteOutcome where
  | done
  | refused
  | cut (n : Nat)
  deriving DecidableEq

/-- What the write of `data` leaves in the file; `none` leaves it alone. -/
def WriteOutcome.left (data : String) : WriteOutcome → Option String
  | .done => some data
  | .refused => none
  | .cut n => some (.ofList (data.toList.take n))

namespace FileTree

variable {α : Type}

/-- `os.Stat` succeeds. -/
def stat (t : FileTree α) : Loc → Bool
  | .root => true
  | .top name => (t.get? name).isSome
  | .inner name file =>
    match t.get? name with
    | some (.dir d) => (d.get? file).isSome
    | _ => false
  | .elsewhere => false

/-- `os.ReadDir` of the root: the names, and whether they are directories. -/
def readDir (t : FileTree α) : List (String × Bool) :=
  t.entries.map (fun e ↦
    match e.2 with
    | .file _ => (e.1, false)
    | .dir _ => (e.1, true))

/-- `os.MkdirAll`; it fails where a file is in the way. -/
def mkdirAll (t : FileTree α) : Loc → Option (FileTree α)
  | .root => some t
  | .top name =>
    match t.get? name with
    | none => some (t.insert name (.dir ∅))
    | some (.dir _) => some t
    | some (.file _) => none
  | _ => none

/-- `os.WriteFile`: whether it succeeded, and the tree after it. -/
def writeFile (t : FileTree α) (loc : Loc) (data : String) (o : WriteOutcome) :
    Bool × FileTree α :=
  match loc with
  | .top name =>
    match t.get? name with
    | some (.dir _) => (false, t)
    | _ =>
      match o.left data with
      | none => (false, t)
      | some content => (o == .done, t.insert name (.file content))
  | .inner name file =>
    match t.get? name with
    | some (.dir d) =>
      match d.get? file with
      | some (.dir _) => (false, t)
      | _ =>
        match o.left data with
        | none => (false, t)
        | some content => (o == .done, t.insert name (.dir (d.insert file (.file content))))
    | _ => (false, t)
  | _ => (false, t)

/-- What is found where a path leads: an entry, a free place in a directory, or no directory that
would have the place. -/
inductive Found where
  | unreachable
  | free
  | file (content : String)
  | dir
  deriving DecidableEq

/-- What is found in a directory. -/
def Found.ofEntry {D : Type} : Option (Entry D) → Found
  | none => .free
  | some (.file content) => .file content
  | some (.dir _) => .dir

/-- What is found at a place. -/
def look (t : FileTree α) : Loc → Found
  | .root => .dir
  | .top name => .ofEntry (t.get? name)
  | .inner name file =>
    match t.get? name with
    | some (.dir d) => .ofEntry (d.get? file)
    | _ => .unreachable
  | .elsewhere => .unreachable

/-- `os.ReadFile`; directories cannot be read. -/
def readFile (t : FileTree α) (loc : Loc) : Option String :=
  match t.look loc with
  | .file content => some content
  | _ => none

/-- `os.RemoveAll` of an entry; removing the root, or what is not in it, is not modelled. -/
def removeAll (t : FileTree α) : Loc → Option (FileTree α)
  | .top name => some (t.erase name)
  | .inner name file =>
    match t.get? name with
    | some (.dir d) => some (t.insert name (.dir (d.erase file)))
    | _ => some t
  | _ => none

/-- `os.Rename` of two entries of the root. Go refuses to replace a directory; a file is
replaced by a file only. -/
def rename (t : FileTree α) : Loc → Loc → Option (FileTree α)
  | .top old, .top new =>
    match t.get? old, t.get? new with
    | none, _ => none
    | some e, none => some ((t.erase old).insert new e)
    | some (.file content), some (.file _) => some ((t.erase old).insert new (.file content))
    | _, _ => none
  | _, _ => none

/-- A name joined to the root leads to an entry of the root. -/
@[simp] theorem locate_join {name : String} (root : String) (h : Path.IsName name.toList) :
    locate root (Path.join [root, name]) = .top name := by
  simp only [locate, Path.parse_join_name root h, Path.Lexical.child, List.take_left,
    List.drop_left, String.ofList_toList, and_self, ↓reduceIte]

/-- A file joined to an entry leads to a file in it. -/
@[simp] theorem locate_join_join {name file : String} (root : String)
    (h : Path.IsName name.toList) (hf : Path.IsName file.toList) :
    locate root (Path.join [Path.join [root, name], file]) = .inner name file := by
  simp only [locate, Path.parse_join_name _ hf, Path.parse_join_name root h, Path.Lexical.child,
    List.append_assoc, List.take_left, List.drop_left, String.ofList_toList, and_self, ↓reduceIte,
    List.cons_append, List.nil_append]

/-- The listed directories are the entries that are directories. -/
theorem mem_readDir (t : FileTree α) (name : String) :
    (name, true) ∈ t.readDir ↔ ∃ d, t.get? name = some (.dir d) := by
  rw [readDir, List.mem_map]
  constructor
  · rintro ⟨⟨n, e⟩, he, heq⟩
    cases e with
    | file c => simp at heq
    | dir d =>
      obtain rfl : n = name := by simpa using heq
      exact ⟨d, AList.mem_lookup_iff.mpr he⟩
  · rintro ⟨d, hd⟩
    exact ⟨⟨name, .dir d⟩, AList.mem_lookup_iff.mp hd, rfl⟩

/-- Everything in `t` is still in `t'`, where the directory `n` is now called `move n`. -/
structure Keeps (t t' : FileTree α) (move : String → String) : Prop where
  file : ∀ n c, t.get? n = some (.file c) → t'.get? n = some (.file c)
  inner : ∀ n d f e, t.get? n = some (.dir d) → d.get? f = some e →
    ∃ d', t'.get? (move n) = some (.dir d') ∧ d'.get? f = some e

/-- Doing nothing keeps everything. -/
theorem Keeps.refl (t : FileTree α) : t.Keeps t id :=
  ⟨fun _ _ h ↦ h, fun _ d _ _ hn hf ↦ ⟨d, hn, hf⟩⟩

/-- What is kept twice is kept. -/
theorem Keeps.trans {t t' t'' : FileTree α} (h : t.Keeps t' id) (h' : t'.Keeps t'' id) :
    t.Keeps t'' id where
  file n c hn := h'.file n c (h.file n c hn)
  inner n d f e hn hf := by
    obtain ⟨d', hn', hf'⟩ := h.inner n d f e hn hf
    exact h'.inner n d' f e hn' hf'

/-- Creating a directory keeps everything. -/
theorem keeps_mkdirAll {t t' : FileTree α} {name : String} (h : t.mkdirAll (.top name) = some t') :
    t.Keeps t' id := by
  simp only [mkdirAll] at h
  split at h
  · next hnone =>
    obtain rfl := Option.some.inj h
    have hget (n : String) (e : Entry (Folder α)) (hn : t.get? n = some e) :
        KeyMap.get? (t.insert name (.dir ∅)) n = some e := by
      rw [KeyMap.get?_insert, if_neg]
      · exact hn
      · rintro rfl
        rw [hnone] at hn
        contradiction
    exact ⟨fun n c hn ↦ hget n _ hn, fun n d f e hn hf ↦ ⟨d, hget n _ hn, hf⟩⟩
  · obtain rfl := Option.some.inj h
    exact Keeps.refl t
  · contradiction

/-- Creating a directory that is there changes nothing. -/
theorem mkdirAll_of_dir {t : FileTree α} {name : String} {d : Folder α}
    (h : t.get? name = some (.dir d)) : t.mkdirAll (.top name) = some t := by
  simp only [mkdirAll, h]

/-- A directory that was not there is created empty. -/
theorem get?_mkdirAll_of_ne_dir {t t' : FileTree α} {name : String}
    (h : t.mkdirAll (.top name) = some t') (hdir : ∀ d, t.get? name ≠ some (.dir d)) :
    t'.get? name = some (.dir ∅) := by
  simp only [mkdirAll] at h
  split at h
  · obtain rfl := Option.some.inj h
    exact (KeyMap.get?_insert t name name _).trans (if_pos rfl)
  · next d hd => exact absurd hd (hdir d)
  · contradiction

/-- What a write to a file of an entry did: nothing, or it left a content in a file of an existing
directory. -/
theorem writeFile_cases (t : FileTree α) (name file data : String) (o : WriteOutcome) :
    (t.writeFile (.inner name file) data o).2 = t ∨
      ∃ d content, t.get? name = some (.dir d) ∧ (∀ d', d.get? file ≠ some (.dir d')) ∧
        o.left data = some content ∧
        (t.writeFile (.inner name file) data o).2 =
          t.insert name (.dir (d.insert file (.file content))) := by
  simp only [writeFile]
  split
  · next d hd =>
    split
    · exact .inl rfl
    · next hfile =>
      split
      · exact .inl rfl
      · next content hleft => exact .inr ⟨d, content, hd, fun d' ↦ hfile d', hleft, rfl⟩
  · exact .inl rfl

private theorem get?_insert_self (t : FileTree α) (name : String) (e : Entry (Folder α)) :
    KeyMap.get? (t.insert name e) name = some e :=
  (KeyMap.get?_insert t name name e).trans (if_pos rfl)

private theorem get?_insert_of_ne (t : FileTree α) {name n : String} (e : Entry (Folder α))
    (h : n ≠ name) : KeyMap.get? (t.insert name e) n = t.get? n :=
  (KeyMap.get?_insert t name n e).trans (if_neg h)

/-- A write keeps everything exactly when it does not change the content of a file. -/
theorem keeps_writeFile_iff (t : FileTree α) (name file data : String) (o : WriteOutcome) :
    t.Keeps (t.writeFile (.inner name file) data o).2 id ↔
      ¬ ∃ d c c', t.get? name = some (.dir d) ∧ d.get? file = some (.file c) ∧
        o.left data = some c' ∧ c' ≠ c := by
  constructor
  · rintro h ⟨d, c, c', hd, hf, hl, hne⟩
    obtain ⟨d', hd', hf'⟩ := h.inner name d file (.file c) hd hf
    simp only [writeFile, hd, hf, hl, id_eq, get?_insert_self, Option.some.injEq,
      Entry.dir.injEq] at hd'
    subst hd'
    rw [KeyMap.get?_insert, if_pos rfl] at hf'
    exact hne (Entry.file.inj (Option.some.inj hf'))
  · intro h
    rcases writeFile_cases t name file data o with heq | ⟨d, content, hd, hnd, hl, heq⟩
    · rw [heq]
      exact Keeps.refl t
    · rw [heq]
      constructor
      · intro n c hn
        rw [get?_insert_of_ne]
        · exact hn
        · rintro rfl
          rw [hd] at hn
          cases hn
      · intro n d₁ f e hn hf
        by_cases hname : n = name
        · subst hname
          obtain rfl : d = d₁ := by simpa [hd] using hn
          refine ⟨_, get?_insert_self t n _, ?_⟩
          rw [KeyMap.get?_insert]
          split
          · next hfile =>
            subst hfile
            cases e with
            | dir d' => exact absurd hf (hnd d')
            | file c =>
              by_cases hc : content = c
              · rw [hc]
              · exact absurd ⟨d, c, content, hd, hf, hl, hc⟩ h
          · exact hf
        · exact ⟨d₁, by rw [id_eq, get?_insert_of_ne t _ hname, hn], hf⟩

/-! ## What a write leaves -/

/-- A write can get at the file: its directory is there, and no directory is in its place. -/
def writable (t : FileTree α) (loc : Loc) : Bool :=
  match t.look loc with
  | .free => true
  | .file _ => true
  | _ => false

/-- The tree with a content put into a file. -/
def put (t : FileTree α) (content : String) : Loc → FileTree α
  | .top name => t.insert name (.file content)
  | .inner name file =>
    match t.get? name with
    | some (.dir d) => t.insert name (.dir (d.insert file (.file content)))
    | _ => t
  | _ => t

private theorem entry_cases (t : Folder α) (name : String) :
    t.get? name = none ∨ (∃ content, t.get? name = some (.file content)) ∨
      ∃ d, t.get? name = some (.dir d) := by
  rcases (t.get? name).eq_none_or_eq_some with h | ⟨e, h⟩
  · exact .inl h
  · cases e with
    | file content => exact .inr (.inl ⟨content, h⟩)
    | dir d => exact .inr (.inr ⟨d, h⟩)

/-- A write that can get at the file puts into it what it leaves. -/
theorem writeFile_eq (t : FileTree α) (loc : Loc) (data : String) (o : WriteOutcome) :
    t.writeFile loc data o =
      if t.writable loc then
        match o.left data with
        | none => (false, t)
        | some content => (o == .done, t.put content loc)
      else (false, t) := by
  cases loc with
  | root => rfl
  | elsewhere => rfl
  | top name =>
    rcases entry_cases t name with h | ⟨content, h⟩ | ⟨d, h⟩
    · simp [writeFile, writable, look, Found.ofEntry, put, h]
    · simp [writeFile, writable, look, Found.ofEntry, put, h]
    · simp [writeFile, writable, look, Found.ofEntry, h]
  | inner name file =>
    rcases entry_cases t name with h | ⟨content, h⟩ | ⟨d, h⟩
    · simp [writeFile, writable, look, h]
    · simp [writeFile, writable, look, h]
    · rcases entry_cases d file with hf | ⟨content, hf⟩ | ⟨d', hf⟩
      · simp [writeFile, writable, look, Found.ofEntry, put, h, hf]
      · simp [writeFile, writable, look, Found.ofEntry, put, h, hf]
      · simp [writeFile, writable, look, Found.ofEntry, h, hf]

/-- A write succeeds when it gets at the file and is done. -/
theorem writeFile_fst (t : FileTree α) (loc : Loc) (data : String) (o : WriteOutcome) :
    (t.writeFile loc data o).1 = true ↔ t.writable loc = true ∧ o = .done := by
  rw [writeFile_eq]
  cases t.writable loc with
  | true => cases o <;> simp [WriteOutcome.left]
  | false => simp

/-- What a successful write leaves. -/
theorem writeFile_done {t : FileTree α} {loc : Loc} (h : t.writable loc = true) (data : String) :
    t.writeFile loc data .done = (true, t.put data loc) := by
  rw [writeFile_eq, if_pos h]
  rfl

/-- What was put into a file is found in it, and everything else as before. -/
theorem look_put {t : FileTree α} {loc : Loc} (h : t.writable loc = true) (content : String)
    (loc' : Loc) :
    (t.put content loc).look loc' = if loc' = loc then .file content else t.look loc' := by
  cases loc with
  | root => contradiction
  | elsewhere => contradiction
  | top name =>
    have hdir (d : Folder α) : t.get? name ≠ some (.dir d) := by
      intro hd
      simp [writable, look, Found.ofEntry, hd] at h
    cases loc' with
    | root => rfl
    | elsewhere => rfl
    | top n =>
      simp only [look, put, KeyMap.get?_insert, Loc.top.injEq]
      split <;> rfl
    | inner n f =>
      simp only [look, put, KeyMap.get?_insert, reduceCtorEq, if_false]
      by_cases hn : n = name
      · subst hn
        rw [if_pos rfl]
        dsimp only
        split
        · next d hd => exact absurd hd (hdir d)
        · rfl
      · rw [if_neg hn]
  | inner name file =>
    rcases entry_cases t name with hd | ⟨c, hd⟩ | ⟨d, hd⟩
    · simp [writable, look, hd] at h
    · simp [writable, look, hd] at h
    · simp only [put, hd]
      cases loc' with
      | root => rfl
      | elsewhere => rfl
      | top n =>
        simp only [look, KeyMap.get?_insert, reduceCtorEq, if_false]
        split
        · next hn => rw [hn, hd]; rfl
        · rfl
      | inner n f =>
        simp only [look, KeyMap.get?_insert, Loc.inner.injEq]
        by_cases hn : n = name
        · subst hn
          simp only [if_true, true_and, hd, KeyMap.get?_insert]
          split <;> rfl
        · simp only [hn, false_and, if_false]

/-- What is found after a write, whether it succeeded or not. -/
theorem look_writeFile (t : FileTree α) (loc : Loc) (data : String) (o : WriteOutcome)
    (loc' : Loc) :
    (t.writeFile loc data o).2.look loc' =
      if t.writable loc = true ∧ loc' = loc then
        ((o.left data).map Found.file).getD (t.look loc)
      else t.look loc' := by
  rw [writeFile_eq]
  by_cases hw : t.writable loc = true
  · rw [if_pos hw]
    by_cases heq : loc' = loc
    · rw [if_pos ⟨hw, heq⟩, heq]
      cases o.left data with
      | none => rfl
      | some content => exact (look_put hw content loc).trans (if_pos rfl)
    · rw [if_neg (fun h ↦ heq h.2)]
      cases o.left data with
      | none => rfl
      | some content => exact (look_put hw content loc').trans (if_neg heq)
  · rw [if_neg hw, if_neg (fun h ↦ hw h.1)]

/-- Putting a file does not change what can be written. -/
theorem writable_put {t : FileTree α} {loc : Loc} (h : t.writable loc = true) (content : String)
    (loc' : Loc) : (t.put content loc).writable loc' = t.writable loc' := by
  by_cases heq : loc' = loc
  · rw [heq, h, writable, look_put h, if_pos rfl]
  · rw [writable, look_put h, if_neg heq, writable]

/-- What was put into a file is read from it, and every other file reads as before. -/
theorem readFile_put {t : FileTree α} {loc : Loc} (h : t.writable loc = true) (content : String)
    (loc' : Loc) :
    (t.put content loc).readFile loc' = if loc' = loc then some content else t.readFile loc' := by
  by_cases heq : loc' = loc
  · rw [readFile, look_put h, if_pos heq, if_pos heq]
  · rw [readFile, look_put h, if_neg heq, if_neg heq, readFile]

/-- There is an entry where one is found. -/
theorem stat_iff (t : FileTree α) (loc : Loc) :
    t.stat loc = true ↔ t.look loc = .dir ∨ ∃ content, t.look loc = .file content := by
  cases loc with
  | root => simp [stat, look]
  | elsewhere => simp [stat, look]
  | top name =>
    rcases entry_cases t name with h | ⟨content, h⟩ | ⟨d, h⟩
    · simp [stat, look, Found.ofEntry, h]
    · simp [stat, look, Found.ofEntry, h]
    · simp [stat, look, Found.ofEntry, h]
  | inner name file =>
    rcases entry_cases t name with h | ⟨content, h⟩ | ⟨d, h⟩
    · simp [stat, look, h]
    · simp [stat, look, h]
    · rcases entry_cases d file with hf | ⟨content, hf⟩ | ⟨d', hf⟩
      · simp [stat, look, Found.ofEntry, h, hf]
      · simp [stat, look, Found.ofEntry, h, hf]
      · simp [stat, look, Found.ofEntry, h, hf]

/-- A file that was put is there, and the rest as before. -/
theorem stat_put {t : FileTree α} {loc : Loc} (h : t.writable loc = true) (content : String)
    (loc' : Loc) : (t.put content loc).stat loc' = true ↔ loc' = loc ∨ t.stat loc' = true := by
  simp only [stat_iff, look_put h]
  by_cases heq : loc' = loc
  · simp [heq]
  · simp [heq]

/-! ## Moves -/

/-- A directory is renamed only to a name that is not taken. -/
theorem rename_dir {t t' : FileTree α} {old new : String} {d : Folder α}
    (hold : t.get? old = some (.dir d)) (h : t.rename (.top old) (.top new) = some t') :
    t.get? new = none ∧ t' = (t.erase old).insert new (.dir d) := by
  simp only [rename, hold] at h
  split at h
  · contradiction
  · next heq hnew =>
    obtain rfl := Option.some.inj heq
    exact ⟨hnew, (Option.some.inj h).symm⟩
  · next heq _ => exact absurd (Option.some.inj heq) (by simp)
  · contradiction

/-- A renamed directory keeps what it holds, and nothing is replaced. -/
theorem keeps_rename {t t' : FileTree α} {old new : String} {d : Folder α}
    (hold : t.get? old = some (.dir d)) (h : t.rename (.top old) (.top new) = some t') :
    t.Keeps t' (fun n ↦ if n = old then new else n) := by
  obtain ⟨hnew, rfl⟩ := rename_dir hold h
  have hget {n : String} {e : Entry (Folder α)} (hn : t.get? n = some e) (hne : n ≠ old) :
      KeyMap.get? ((t.erase old).insert new (.dir d)) n = some e := by
    rw [get?_insert_of_ne, KeyMap.get?_erase, if_neg hne, hn]
    rintro rfl
    rw [hnew] at hn
    contradiction
  constructor
  · intro n c hn
    apply hget hn
    rintro rfl
    rw [hold] at hn
    cases hn
  · intro n d₁ f e hn hf
    by_cases hname : n = old
    · subst hname
      obtain rfl : d = d₁ := by simpa [hold] using hn
      exact ⟨d, by simp only [↓reduceIte, get?_insert_self], hf⟩
    · exact ⟨d₁, by simp only [if_neg hname, hget hn hname], hf⟩

end FileTree

end Dockstack.Base
