import Dockstack.Base.Service
import Dockstack.Server.StackSaveRead
import Dockstack.Server.StackSlots

/-!
# A store of stacks

What the handlers of `internal/server/api/stacks.go:135–330` are for, in terms of the stacks
alone: a name has a folder of files or none, and each request makes, reads, changes, moves
or removes one. Where the stacks directory holds nothing unusual and nothing fails on its
own, the handlers are this store.
-/

namespace Dockstack.Server

open Dockstack.Base Dockstack.Docker

variable {α : Type}

/-- The stacks, each with its files. -/
abbrev StackStore (α : Type) := String → Option (Folder α)

/-- An answer of the store: a refusal has no text. -/
inductive StoreReply where
  | done
  | files (r : StackFilesResponse)
  | refused
  deriving DecidableEq

namespace StackStore

/-- The names of stacks: accepted by the API and shown by `ListStacks`. -/
def isStackName (name : String) : Bool := stackNameRe name && !hasPrefix name "_"

/-- The content of a file. -/
def content (d : Folder α) (file : String) : Option String :=
  match d.get? file with
  | some (.file c) => some c
  | _ => none

/-- The first of the compose files that is there. -/
def composeFile (d : Folder α) : Option String :=
  composeFilenames.find? (fun f ↦ (d.get? f).isSome)

/-- The files that a reader gets. -/
def filesOf (d : Folder α) : Option StackFilesResponse :=
  (composeFile d).bind (fun f ↦ (content d f).map (fun c ↦ ⟨c, f, content d ".env"⟩))

/-- Nothing but a file is, or may be, under the name. -/
def writable (d : Folder α) (file : String) : Bool :=
  match d.get? file with
  | some (.dir _) => false
  | _ => true

/-- The folder after a save. -/
def saved (d : Folder α) (req : StackFilesSaveRequest) : Folder α :=
  let d := d.insert req.composeFile (.file req.compose)
  match req.env with
  | none => d
  | some env => d.insert ".env" (.file env)

/-- The store's answer to a request, and the store after it. -/
def serve (σ : StackStore α) : StackCall → StoreReply × StackStore α
  | .get name _ =>
    match (σ name).bind filesOf with
    | none => (.refused, σ)
    | some r => (.files r, σ)
  | .create name _ =>
    if isStackName name = true ∧ σ name = none then
      (.done, Function.update σ name
        (some ((∅ : Folder α).insert "compose.yaml" (.file (composeTemplate name)))))
    else (.refused, σ)
  | .createEnv name _ =>
    if isStackName name then
      (.done, Function.update σ name
        (some (((σ name).getD ∅).insert ".env" (.file envTemplate))))
    else (.refused, σ)
  | .save name req _ =>
    match σ name with
    | none => (.refused, σ)
    | some d =>
      if Path.IsName req.composeFile.toList ∧ req.compose ≠ "" ∧
          writable d req.composeFile = true then
        (.done, Function.update σ name (some (saved d req)))
      else (.refused, σ)
  | .rename name newName _ =>
    if isStackName name = false ∨ isStackName newName = false then (.refused, σ)
    else if newName = name then (.done, σ)
    else
      match σ name, σ newName with
      | some d, none => (.done, Function.update (Function.update σ name none) newName (some d))
      | _, _ => (.refused, σ)
  | .destroy name _ =>
    match (σ name).bind composeFile with
    | none => (.refused, σ)
    | some _ => (.done, Function.update σ name none)

end StackStore

/-- The answer of a handler without its text. -/
def StackReply.toStore : StackReply → StoreReply
  | .done => .done
  | .files r => .files r
  | .refused _ => .refused

/-- The folder under a name. -/
def Slot.folder : Slot α → Option (Folder α)
  | some (.dir d) => some d
  | _ => none

/-- The stacks of a stacks directory. -/
def Shelf.store (σ : Shelf α) : StackStore α := fun n ↦
  if StackStore.isStackName n then Slot.folder (σ.slot n) else none

/-- What may lie under the name of a stack: nothing, or a directory in which no directory has the
name of a file that the API reads or writes on its own. -/
def Slot.Tidy : Slot α → Prop
  | none => True
  | some (.file _) => False
  | some (.dir d) => ∀ f ∈ ".env" :: composeFilenames, StackStore.writable d f = true

/-- Nothing unusual lies under the names of stacks. -/
def Shelf.Tidy (σ : Shelf α) : Prop := ∀ n, StackStore.isStackName n = true → (σ.slot n).Tidy

/-- Nothing fails on its own, no name is hidden by its `_`, and a save does not name the stack's
own directory as the file. -/
def StackCall.Calm : StackCall → Prop
  | .get name o => hasPrefix name "_" = false ∧ o = noGetFaults
  | .create name o => hasPrefix name "_" = false ∧ o = ⟨false, false, .done⟩
  | .createEnv name o => hasPrefix name "_" = false ∧ o = ⟨false, .done⟩
  | .save name req o => hasPrefix name "_" = false ∧ o = ⟨.done, .done⟩ ∧
      req.composeFile ≠ "." ∧ req.composeFile ≠ "/"
  | .rename name newName o => hasPrefix name "_" = false ∧ hasPrefix newName "_" = false ∧
      ∃ started, o = ⟨false, false, false, false, false, started⟩
  | .destroy name o => hasPrefix name "_" = false ∧ o = noDestroyFaults

/-! ## Folders and what lies under a name -/

namespace StackStore

variable {d : Folder α} {name file f : String}

private theorem writable_insert (d : Folder α) (f g c : String) (h : writable d g = true) :
    writable (d.insert f (.file c)) g = true := by
  unfold writable at h ⊢
  rw [KeyMap.get?_insert]
  by_cases heq : g = f
  · rw [if_pos heq]
  · rw [if_neg heq]
    exact h

private theorem write_dir (d : Folder α) (f data : String) :
    Slot.write (some (.dir d)) f data .done =
      if writable d f = true then (true, some (.dir (d.insert f (.file data))))
      else (false, some (.dir d)) := by
  rcases h : d.get? f with _ | ⟨c | d'⟩
  · simp [Slot.write, writable, h, WriteOutcome.left]
  · simp [Slot.write, writable, h, WriteOutcome.left]
  · simp [Slot.write, writable, h]

private theorem read_dir (d : Folder α) (f : String) :
    Slot.read (some (.dir d)) f = content d f := by
  rcases h : d.get? f with _ | ⟨c | d'⟩
  · simp [Slot.read, content, h]
  · simp [Slot.read, content, h]
  · simp [Slot.read, content, h]

private theorem tidy_insert (h : Slot.Tidy (some (.dir d))) (f c : String) :
    Slot.Tidy (some (.dir (d.insert f (.file c)))) :=
  fun g hg ↦ writable_insert d f g c (h g hg)

private theorem exists_content (h : Slot.Tidy (some (.dir d))) (hf : composeFile d = some f) :
    ∃ c, content d f = some c := by
  have hwritable := h f (List.mem_cons_of_mem _ (List.mem_of_find?_eq_some hf))
  have hthere := List.find?_some hf
  unfold writable at hwritable
  unfold content
  rcases he : d.get? f with _ | ⟨c | d'⟩
  · rw [he] at hthere
    contradiction
  · exact ⟨c, rfl⟩
  · rw [he] at hwritable
    contradiction

private theorem tidy_cases {e : Slot α} (h : e.Tidy) : e = none ∨ ∃ d, e = some (.dir d) := by
  match e, h with
  | none, _ => exact .inl rfl
  | some (.dir d), _ => exact .inr ⟨d, rfl⟩

private theorem isStackName_eq (h : hasPrefix name "_" = false) :
    isStackName name = stackNameRe name := by
  rw [isStackName, h, Bool.not_false, Bool.and_true]

private theorem listed_eq (h : isStackName name = true) (e : Slot α) :
    Slot.listed name e = (Slot.folder e).isSome := by
  rw [isStackName, Bool.and_eq_true, Bool.not_eq_true'] at h
  unfold Slot.listed
  rw [not_hasPrefix_dot h.1, h.2]
  rcases e with _ | ⟨c | d⟩ <;> rfl

end StackStore

namespace StackEffect

open StackStore

variable {s : Stacks} {σ : Shelf α} {name : String}

/-- The effect is the one that the store has, and leaves the stacks directory tidy. -/
structure Stores (σ : Shelf α) (e : StackEffect α) (r : StoreReply × StackStore α) : Prop where
  reply : e.reply.toStore = r.1
  store : (e.apply σ).store = r.2
  tidy : (e.apply σ).Tidy

private theorem stores_of_nil (htidy : σ.Tidy) {r : StackReply} {r' : StoreReply}
    (h : r.toStore = r') (services : List (String × List String)) :
    Stores σ ⟨r, [], services⟩ (r', σ.store) := ⟨h, rfl, htidy⟩

private theorem stores_refuse (htidy : σ.Tidy) (status : Nat) (detail : String) :
    Stores σ (refuse status detail) (.refused, σ.store) := stores_of_nil htidy rfl []

private theorem stores_slot (htidy : σ.Tidy) (hname : isStackName name = true) {e : Slot α}
    (he : e.Tidy) {r : StackReply} {r' : StoreReply} (h : r.toStore = r')
    (services : List (String × List String)) :
    Stores σ ⟨r, [(name, e)], services⟩
      (r', Function.update σ.store name (Slot.folder e)) := by
  refine ⟨h, ?_, ?_⟩
  · funext n
    simp only [Shelf.store, apply, List.foldl_cons, List.foldl_nil, Function.update_apply]
    by_cases hn : n = name
    · rw [if_pos hn, if_pos hn, hn, if_pos hname]
    · rw [if_neg hn, if_neg hn]
  · intro n hn
    simp only [apply, List.foldl_cons, List.foldl_nil, Function.update_apply]
    split
    · exact he
    · exact htidy n hn

private theorem stores_same (htidy : σ.Tidy) (hname : isStackName name = true) {r : StackReply}
    {r' : StoreReply} (h : r.toStore = r') {e : Slot α} (he : e = σ.slot name) :
    Stores σ ⟨r, [(name, e)], []⟩ (r', σ.store) := by
  have hstores := stores_slot htidy hname (he ▸ htidy name hname) h []
  have hsame : Function.update σ.store name (Slot.folder e) = σ.store := by
    apply Function.update_eq_self_iff.mpr
    rw [Shelf.store, if_pos hname, he]
  rw [hsame] at hstores
  exact hstores

private theorem store_of_name (hname : isStackName name = true) :
    σ.store name = Slot.folder (σ.slot name) := if_pos hname

private theorem store_of_not (h : stackNameRe name = false) : σ.store name = none := by
  rw [Shelf.store, if_neg]
  rw [isStackName, h, Bool.false_and]
  exact Bool.false_ne_true

private theorem composeFile_none : Slot.composeFile (none : Slot α) = none := by
  simp [Slot.composeFile, Slot.has]

private theorem composeFile_dir (d : Folder α) :
    Slot.composeFile (some (.dir d)) = StackStore.composeFile d := rfl

private theorem stores_get (htidy : σ.Tidy) (hshown : hasPrefix name "_" = false) :
    Stores σ (get (σ.slot name) name noGetFaults)
      (StackStore.serve σ.store (.get name noGetFaults)) := by
  rw [get, StackStore.serve]
  cases hvalid : stackNameRe name with
  | false =>
    rw [if_pos rfl, store_of_not hvalid]
    exact stores_refuse htidy _ _
  | true =>
    have hname : isStackName name = true := (isStackName_eq hshown).trans hvalid
    rw [if_neg (by decide), store_of_name hname]
    rcases tidy_cases (htidy name hname) with he | ⟨d, he⟩
    · rw [he, composeFile_none]
      exact stores_refuse htidy _ _
    · have htidyd := htidy name hname
      rw [he] at htidyd
      rw [he, composeFile_dir, Slot.folder, Option.bind_some, filesOf]
      cases hfile : StackStore.composeFile d with
      | none => exact stores_refuse htidy _ _
      | some f =>
        obtain ⟨c, hc⟩ := exists_content htidyd hfile
        simp only [noGetFaults, Bool.false_eq_true, ↓reduceIte, read_dir, hc, Option.bind_some,
          Option.map_some]
        exact stores_of_nil htidy rfl []

private theorem stores_starter (htidy : σ.Tidy) (hname : isStackName name = true) (file : String)
    (hfile : file ∈ ".env" :: composeFilenames) (data mkdirDetail writeDetail : String) :
    Stores σ (starter (σ.slot name) name file data false .done mkdirDetail writeDetail)
      (.done, Function.update σ.store name
        (some (((σ.store name).getD ∅).insert file (.file data)))) := by
  have htidyd := htidy name hname
  rw [starter, if_neg Bool.false_ne_true, store_of_name hname]
  rcases tidy_cases htidyd with he | ⟨d, he⟩
  · have hempty : Slot.Tidy (some (.dir (∅ : Folder α))) := fun _ _ ↦ rfl
    rw [he, Slot.mkdir]
    dsimp only
    rw [write_dir, if_pos (hempty file hfile)]
    exact stores_slot htidy hname (tidy_insert hempty file data) rfl []
  · rw [he] at htidyd
    rw [he, Slot.mkdir]
    dsimp only
    rw [write_dir, if_pos (htidyd file hfile)]
    exact stores_slot htidy hname (tidy_insert htidyd file data) rfl []

private theorem stores_create (htidy : σ.Tidy) (hshown : hasPrefix name "_" = false) :
    Stores σ (create (σ.slot name) name ⟨false, false, .done⟩)
      (StackStore.serve σ.store (.create name ⟨false, false, .done⟩)) := by
  rw [create, StackStore.serve, isStackName_eq hshown]
  cases hvalid : stackNameRe name with
  | false => exact stores_refuse htidy _ _
  | true =>
    have hname : isStackName name = true := (isStackName_eq hshown).trans hvalid
    rw [if_neg (by decide), if_neg Bool.false_ne_true, listed_eq hname, ← store_of_name hname]
    cases hfolder : σ.store name with
    | some d => exact stores_refuse htidy _ _
    | none =>
      have hstarter := stores_starter htidy hname "compose.yaml" (by decide)
        (composeTemplate name) "failed to create stack directory"
        "failed to write starter compose file"
      rw [hfolder] at hstarter
      exact hstarter

private theorem stores_createEnv (htidy : σ.Tidy) (hshown : hasPrefix name "_" = false) :
    Stores σ (createEnv (σ.slot name) name ⟨false, .done⟩)
      (StackStore.serve σ.store (.createEnv name ⟨false, .done⟩)) := by
  rw [createEnv, StackStore.serve, isStackName_eq hshown]
  cases hvalid : stackNameRe name with
  | false => exact stores_refuse htidy _ _
  | true =>
    have hname : isStackName name = true := (isStackName_eq hshown).trans hvalid
    exact stores_starter htidy hname _ List.mem_cons_self _ _ _

private theorem base_of_isName {f : String} (h : Path.IsName f.toList) : Path.base f = f := by
  have hjoin : Path.join ["", f] = f := by
    rw [Path.join_name "" h, Path.Lexical.render_child]
    exact String.ofList_toList
  have hbase := Path.base_join_name "" h
  rw [hjoin] at hbase
  exact hbase

private theorem saveTarget_iff {req : StackFilesSaveRequest} (hdot : req.composeFile ≠ ".")
    (hslash : req.composeFile ≠ "/") (hvalid : stackNameRe name = true) :
    (∃ path, saveTarget s name req = .ok path) ↔
      Path.IsName req.composeFile.toList ∧ req.compose ≠ "" := by
  constructor
  · rintro ⟨path, hpath⟩
    obtain ⟨-, hcompose, ⟨hf, -⟩ | ⟨hf, -⟩⟩ := saveTarget_cases hpath
    · exact ⟨hf, hcompose⟩
    · exact absurd hf (not_or.mpr ⟨hdot, hslash⟩)
  · rintro ⟨hf, hcompose⟩
    have hne : name ≠ "" := by
      rintro rfl
      contradiction
    have hfile : ¬ (req.composeFile = "" ∨ Path.base req.composeFile ≠ req.composeFile) := by
      rintro (hnil | hbase)
      · rw [hnil] at hf
        exact hf.1 rfl
      · exact hbase (base_of_isName hf)
    have hguard : isWithinStacksDir (Path.join [s.stacksDir, name])
        (Path.join [s.stacksDir, name, req.composeFile]) = true := by
      rw [Path.join_concat_name _ hne hf, isWithinStacksDir_join _ hf]
      rw [← not_or, ← Path.comps_eq_nil_iff,
        Path.parse_join_name _ (isName_of_stackNameRe hvalid), Path.Lexical.comps_child]
      simp
    refine ⟨Path.join [s.stacksDir, name, req.composeFile], ?_⟩
    unfold saveTarget validateStackName
    rw [if_pos hvalid]
    dsimp only
    rw [if_neg hfile, if_neg hcompose, hguard]
    rfl

private theorem stores_save (s : Stacks) (htidy : σ.Tidy) (hshown : hasPrefix name "_" = false)
    {req : StackFilesSaveRequest} (hdot : req.composeFile ≠ ".") (hslash : req.composeFile ≠ "/") :
    Stores σ (save s (σ.slot name) name req ⟨.done, .done⟩)
      (StackStore.serve σ.store (.save name req ⟨.done, .done⟩)) := by
  rw [save, StackStore.serve]
  cases hvalid : stackNameRe name with
  | false =>
    have hrefused : saveTarget s name req = .error ⟨400, "invalid stack name"⟩ := by
      unfold saveTarget validateStackName
      rw [if_neg (Bool.not_eq_true _ ▸ hvalid)]
    rw [hrefused, store_of_not hvalid]
    exact stores_of_nil htidy rfl []
  | true =>
    have hname : isStackName name = true := (isStackName_eq hshown).trans hvalid
    have hchecks := saveTarget_iff (s := s) hdot hslash hvalid
    have htidyd := htidy name hname
    have hcompose : saveCompose (σ.slot name) req .done =
        Slot.write (σ.slot name) req.composeFile req.compose .done :=
      if_neg (not_or.mpr ⟨hdot, hslash⟩)
    rw [store_of_name hname]
    rcases tidy_cases htidyd with he | ⟨d, he⟩
    · have hwrite : Slot.write (none : Slot α) req.composeFile req.compose .done =
          (false, none) := rfl
      cases htarget : saveTarget s name req with
      | error e =>
        rw [he]
        exact stores_of_nil htidy rfl []
      | ok path =>
        dsimp only
        rw [hcompose, he, hwrite]
        exact stores_same htidy hname rfl he.symm
    · rw [he] at htidyd hcompose ⊢
      rw [write_dir] at hcompose
      rw [Slot.folder]
      cases htarget : saveTarget s name req with
      | error e =>
        have hnot : ¬ (Path.IsName req.composeFile.toList ∧ req.compose ≠ "" ∧
            StackStore.writable d req.composeFile = true) := by
          rintro ⟨hf, hne, -⟩
          obtain ⟨path, hpath⟩ := hchecks.mpr ⟨hf, hne⟩
          rw [htarget] at hpath
          contradiction
        dsimp only
        rw [if_neg hnot]
        exact stores_of_nil htidy rfl []
      | ok path =>
        obtain ⟨hf, hne⟩ := hchecks.mp ⟨path, htarget⟩
        dsimp only
        rw [hcompose]
        by_cases hw : StackStore.writable d req.composeFile = true
        · have hput := tidy_insert htidyd req.composeFile req.compose
          rw [if_pos hw, if_neg (by simp), if_pos ⟨hf, hne, hw⟩, saved]
          cases req.env with
          | none => exact stores_slot htidy hname hput rfl []
          | some env =>
            dsimp only
            rw [write_dir, if_pos (hput ".env" List.mem_cons_self)]
            exact stores_slot htidy hname (tidy_insert hput ".env" env) rfl []
        · rw [if_neg hw, if_pos rfl, if_neg (fun h ↦ hw h.2.2)]
          exact stores_same htidy hname rfl he.symm

private theorem stores_destroy (hmovable : movable s = true) (htidy : σ.Tidy)
    (hshown : hasPrefix name "_" = false) :
    Stores σ (destroy s (σ.slot name) name noDestroyFaults)
      (StackStore.serve σ.store (.destroy name noDestroyFaults)) := by
  rw [destroy, StackStore.serve]
  cases hvalid : stackNameRe name with
  | false =>
    rw [if_pos rfl, store_of_not hvalid]
    exact stores_refuse htidy _ _
  | true =>
    have hname : isStackName name = true := (isStackName_eq hshown).trans hvalid
    rw [if_neg (by decide), store_of_name hname]
    rcases tidy_cases (htidy name hname) with he | ⟨d, he⟩
    · rw [he, if_pos (.inl composeFile_none)]
      exact stores_refuse htidy _ _
    · rw [he, composeFile_dir, Slot.folder, Option.bind_some]
      cases StackStore.composeFile d with
      | none => exact stores_refuse htidy _ _
      | some f =>
        rw [if_neg (by simp [noDestroyFaults]), hmovable]
        exact stores_slot htidy hname (e := none) trivial rfl _

private theorem stores_moved (htidy : σ.Tidy) {newName : String} {e : Slot α}
    (hname : isStackName name = true) (hnew : isStackName newName = true) (he : e.Tidy)
    (o : RenameFaults) (hup : o.upFails = false) (down : List (String × List String)) :
    Stores σ (moved e name newName o down)
      (.done, Function.update (Function.update σ.store name none) newName (Slot.folder e)) := by
  have hslots (services : List (String × List String)) :
      Stores σ ⟨.done, [(name, none), (newName, e)], services⟩
        (.done, Function.update (Function.update σ.store name none) newName (Slot.folder e)) := by
    have hgone := stores_slot htidy hname (e := none) trivial (r := .done) rfl []
    have hmoved := stores_slot hgone.tidy hnew he (r := .done) rfl []
    rw [hgone.store] at hmoved
    exact ⟨rfl, hmoved.store, hmoved.tidy⟩
  rw [moved, hup]
  split
  · exact hslots _
  · exact hslots _

private theorem stores_rename (hmovable : movable s = true) (htidy : σ.Tidy) {newName : String}
    (hshown : hasPrefix name "_" = false) (hnewShown : hasPrefix newName "_" = false)
    (started : List String) :
    Stores σ (rename s (σ.slot name) (σ.slot newName) name newName
        ⟨false, false, false, false, false, started⟩)
      (StackStore.serve σ.store
        (.rename name newName ⟨false, false, false, false, false, started⟩)) := by
  rw [rename, StackStore.serve, isStackName_eq hshown, isStackName_eq hnewShown]
  cases hvalid : stackNameRe name with
  | false => exact stores_refuse htidy _ _
  | true =>
    cases hnewValid : stackNameRe newName with
    | false => exact stores_refuse htidy _ _
    | true =>
      have hname : isStackName name = true := (isStackName_eq hshown).trans hvalid
      have hnew : isStackName newName = true := (isStackName_eq hnewShown).trans hnewValid
      have hboth : ¬ (true = false ∨ true = false) := by decide
      rw [if_neg hboth, if_neg (by decide), if_neg (by decide)]
      by_cases heq : newName = name
      · rw [if_pos heq, if_pos heq]
        exact stores_of_nil htidy rfl []
      · have htidyd := htidy name hname
        rw [if_neg heq, if_neg heq, if_neg Bool.false_ne_true, listed_eq hname, listed_eq hnew,
          store_of_name hname, store_of_name hnew]
        rcases tidy_cases htidyd with he | ⟨d, he⟩
        · rw [he]
          exact stores_refuse htidy _ _
        · rw [he] at htidyd
          rcases tidy_cases (htidy newName hnew) with he' | ⟨d', he'⟩
          · rw [he, he', if_neg (by simp [Slot.folder]), if_neg Bool.false_ne_true,
              if_neg (by simp [Slot.folder]), if_neg (by simp), hmovable]
            dsimp only
            rw [if_neg (by decide), if_neg (by simp)]
            exact stores_moved htidy hname hnew htidyd _ rfl _
          · rw [he, he']
            exact stores_refuse htidy _ _

end StackEffect

private theorem stores_effect {s : Stacks} (hmovable : StackEffect.movable s = true)
    {σ : Shelf α} (htidy : σ.Tidy) {c : StackCall} (h : c.Calm) :
    (c.effect s σ.slot).Stores σ (StackStore.serve σ.store c) := by
  cases c with
  | get name o =>
    obtain ⟨hshown, rfl⟩ := h
    exact StackEffect.stores_get htidy hshown
  | create name o =>
    obtain ⟨hshown, rfl⟩ := h
    exact StackEffect.stores_create htidy hshown
  | createEnv name o =>
    obtain ⟨hshown, rfl⟩ := h
    exact StackEffect.stores_createEnv htidy hshown
  | save name req o =>
    obtain ⟨hshown, rfl, hdot, hslash⟩ := h
    exact StackEffect.stores_save s htidy hshown hdot hslash
  | rename name newName o =>
    obtain ⟨hshown, hnewShown, started, rfl⟩ := h
    exact StackEffect.stores_rename hmovable htidy hshown hnewShown started
  | destroy name o =>
    obtain ⟨hshown, rfl⟩ := h
    exact StackEffect.stores_destroy hmovable htidy hshown

namespace StackStore

/-- A handler's answer without its text. -/
def handlers (s : Stacks) (cli : DockerCLI α) (w : World α) (c : StackCall) :
    StoreReply × World α :=
  let r := StackCall.serve s cli w c
  (r.1.toStore, r.2)

/-- The handlers are a store of folders: in a stacks directory that the guard lets pass and that
holds nothing unusual, every run of requests in which nothing fails on its own is answered as
the store answers it. The directory then holds what the store holds, still nothing unusual, and
of the names that stacks can have it lists exactly the store's; a directory with another name, such
as `my.app`, is listed too. -/
theorem serveAll_handlers (s : Stacks) (cli : DockerCLI α)
    (hdir : Path.clean s.stacksDir ≠ "." ∧ Path.clean s.stacksDir ≠ "/") (w : World α)
    (htidy : w.shelf.Tidy) (calls : List StackCall) (hcalm : ∀ c ∈ calls, c.Calm) :
    let r := serveAll (handlers s cli) w calls
    let r' := serveAll serve w.shelf.store calls
    r.1 = r'.1 ∧ r.2.shelf.store = r'.2 ∧ r.2.shelf.Tidy ∧
      ∀ n, stackNameRe n = true → (n ∈ listStacks r.2.tree ↔ r'.2 n ≠ none) := by
  have hmovable : StackEffect.movable s = true := by
    simpa [StackEffect.movable] using hdir
  have hstep : ∀ c ∈ calls, ∀ (w : World α) (σ : StackStore α),
      (w.shelf.Tidy ∧ w.shelf.store = σ) →
      Alike (fun w σ ↦ w.shelf.Tidy ∧ w.shelf.store = σ) (handlers s cli w c) (serve σ c) := by
    rintro c hc w σ ⟨htidy, rfl⟩
    obtain ⟨hreply, hshelf⟩ := StackCall.done_effect s cli w c
    obtain ⟨hstoreReply, hstore, htidyAfter⟩ := stores_effect hmovable htidy (hcalm c hc)
    rw [← hshelf] at hstore htidyAfter
    exact ⟨(congrArg StackReply.toStore hreply).trans hstoreReply, htidyAfter, hstore⟩
  obtain ⟨hanswers, htidyEnd, hstore⟩ := alike_serveAll hstep ⟨htidy, rfl⟩
  refine ⟨hanswers, hstore, htidyEnd, fun n hn ↦ ?_⟩
  rw [← hstore, ← List.contains_iff_mem, ← stackExists, stackExists_eq]
  cases hshown : hasPrefix n "_" with
  | true =>
    unfold Slot.listed Shelf.store isStackName
    simp [hshown]
  | false =>
    have hname : isStackName n = true := (isStackName_eq hshown).trans hn
    rw [listed_eq hname, Shelf.store, if_pos hname, Option.isSome_iff_ne_none]
    rfl

/-- A stack is created, read, moved and destroyed in an empty stacks directory. -/
theorem serveAll_handlers_blog :
    (serveAll (handlers defaultStacks noDocker) (⟨∅, fun _ ↦ []⟩ : World Unit)
      [.create "app" ⟨false, false, .done⟩, .createEnv "app" ⟨false, .done⟩,
        .rename "app" "blog" ⟨false, false, false, false, false, ["web"]⟩,
        .get "app" noGetFaults, .get "blog" noGetFaults, .destroy "blog" noDestroyFaults]).1 =
      [.done, .done, .done, .refused,
        .files ⟨composeTemplate "app", "compose.yaml", some envTemplate⟩, .done] := by
  have hempty : (World.shelf (⟨∅, fun _ ↦ []⟩ : World Unit)).Tidy := fun _ _ ↦ trivial
  refine (serveAll_handlers defaultStacks noDocker ?_ _ hempty _ ?_).1.trans ?_
  · decide +kernel
  · intro c hc
    simp only [List.mem_cons, List.not_mem_nil, or_false] at hc
    rcases hc with rfl | rfl | rfl | rfl | rfl | rfl
    · exact ⟨by decide, rfl⟩
    · exact ⟨by decide, rfl⟩
    · exact ⟨by decide, by decide, ["web"], rfl⟩
    · exact ⟨by decide, rfl⟩
    · exact ⟨by decide, rfl⟩
    · exact ⟨by decide, rfl⟩
  · decide +kernel

end StackStore

end Dockstack.Server
