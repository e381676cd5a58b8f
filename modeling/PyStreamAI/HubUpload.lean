import PyStreamAI.Machine
import PyStreamAI.Py.Adds

/-!
# Uploads to the model hub

`upload_model` creates the repository, saves a model that is no path into a temporary directory, and
uploads. The hub, the model and the file system answer each call, or raise, as they like after what
happened so far. A history falls into the calls that its uploads made, one block each: an upload that
returned true was completed in its own block, one that was completed returned true unless its
temporary directory could not be removed, and a temporary directory that was made was removed or tried
to be (`uploads_run`).
-/

open Py Machine

namespace PyStreamAI

namespace HuggingFaceRegistry

/-- What is uploaded: a path, or an object with or without the two methods to save it. -/
inductive HubModel
  | path (path : String)
  | object (savePretrained save : Bool)

structure UploadRequest where
  model : HubModel
  repoName : String
  token : Option String := none
  priv : Bool := false

/-- A call of the hub library, of the model or for the temporary directory. -/
inductive HubCall
  | api (token : Option String)
  | createRepo (repoId : String) (priv : Bool)
  | mkdtemp (dir : String)
  | savePretrained (dir : String)
  | save (path : String)
  | uploadFolder (folderPath repoId : String) (token : Option String)
  | uploadFile (path pathInRepo repoId : String) (token : Option String)
  | cleanup (dir : String)
  deriving DecidableEq

/-- What is around: the answers to calls, whether the hub library is installed, the files, and the
name of the next temporary directory, after what happened so far. -/
structure Hub where
  installed : Bool
  answer : List (Exchange HubCall) → HubCall → Except Exn Unit
  pathExists : String → List (Exchange HubCall) → Bool
  isdir : String → List (Exchange HubCall) → Bool
  tempDir : List (Exchange HubCall) → String

/-- `os.path.basename(path)`. -/
def basename (path : String) : String :=
  String.ofList (path.toList.reverse.takeWhile (· ≠ '/')).reverse

/-- `os.path.join(dir, name)` for a relative name. -/
def joinPath (dir name : String) : String :=
  if dir = "" ∨ dir.endsWith "/" then dir ++ name else dir ++ "/" ++ name

variable (hub : Hub)

/-- `with tempfile.TemporaryDirectory() as tmpdir: body(tmpdir)`. -/
def withTemporaryDirectory (body : String → Act (List (Exchange HubCall)) Unit) :
    Act (List (Exchange HubCall)) Unit := do
  let tmpdir ← Act.look hub.tempDir
  Act.tell hub.answer (.mkdtemp tmpdir)
  Act.ensure (body tmpdir) (Act.tell hub.answer (.cleanup tmpdir))

/-- The part for a path. -/
def uploadPath (r : UploadRequest) (path : String) : Act (List (Exchange HubCall)) Unit := do
  if ← Act.look (hub.pathExists path) then
    if ← Act.look (hub.isdir path) then
      Act.tell hub.answer (.uploadFolder path r.repoName r.token)
    else Act.tell hub.answer (.uploadFile path (basename path) r.repoName r.token)
  else
    Act.raise (.exception ⟨"FileNotFoundError", s!"model path does not exist: {path}"⟩)

/-- Save an object into a directory. -/
def saveModel (savePretrained save : Bool) (tmpdir : String) : Act (List (Exchange HubCall)) Unit :=
  if savePretrained then Act.tell hub.answer (.savePretrained tmpdir)
  else if save then Act.tell hub.answer (.save (joinPath tmpdir "model"))
  else Act.raise (.exception ⟨"TypeError",
    "model must be a path or expose save_pretrained()/save()"⟩)

/-- The part for an object. -/
def uploadObject (r : UploadRequest) (savePretrained save : Bool) :
    Act (List (Exchange HubCall)) Unit :=
  withTemporaryDirectory hub fun tmpdir => do
    saveModel hub savePretrained save tmpdir
    Act.tell hub.answer (.uploadFolder tmpdir r.repoName r.token)

/-- The part after the repository was created. -/
def uploadContent (r : UploadRequest) : Act (List (Exchange HubCall)) Unit :=
  match r.model with
  | .path path => uploadPath hub r path
  | .object savePretrained save => uploadObject hub r savePretrained save

/-- Upload a local model (path or object) to the hub. -/
def uploadModel (r : UploadRequest) : Act (List (Exchange HubCall)) Bool :=
  if hub.installed then
    Act.orElse (do
      Act.tell hub.answer (.api r.token)
      Act.tell hub.answer (.createRepo r.repoName r.priv)
      uploadContent hub r
      return true) false
  else pure false

/-! ## What an upload leaves -/

/-- The repository that a call uploads to. -/
def HubCall.uploadsTo : HubCall → Option String
  | .uploadFolder _ repoId _ => some repoId
  | .uploadFile _ _ repoId _ => some repoId
  | _ => none

/-- The temporary directory that a call makes. -/
def HubCall.makes : HubCall → Option String
  | .mkdtemp dir => some dir
  | _ => none

/-- The temporary directory that a call removes. -/
def HubCall.removes : HubCall → Option String
  | .cleanup dir => some dir
  | _ => none

/-- The repositories that were uploaded to, in order. -/
def uploaded (trace : List (Exchange HubCall)) : List String :=
  (Exchange.done trace).filterMap HubCall.uploadsTo

/-- The temporary directories that were made, in order. -/
def made (trace : List (Exchange HubCall)) : List String :=
  (Exchange.done trace).filterMap HubCall.makes

/-- The temporary directories that were removed or tried to be, in order. -/
def removed (trace : List (Exchange HubCall)) : List String :=
  trace.filterMap fun e => e.call.removes

/-- A temporary directory could not be removed. -/
def CleanupRaised (trace : List (Exchange HubCall)) : Prop :=
  ∃ dir e, ⟨.cleanup dir, .error e⟩ ∈ trace

section Lists

variable (call : HubCall) (trace trace' : List (Exchange HubCall))

@[simp] theorem uploaded_nil : uploaded [] = [] := rfl

@[simp] theorem made_nil : made [] = [] := rfl

@[simp] theorem removed_nil : removed [] = [] := rfl

@[simp] theorem uploaded_cons_ok (u : Unit) :
    uploaded (⟨call, .ok u⟩ :: trace) = call.uploadsTo.toList ++ uploaded trace := by
  show List.filterMap HubCall.uploadsTo (call :: Exchange.done trace) = _
  rw [List.filterMap_cons]
  cases call.uploadsTo <;> rfl

@[simp] theorem uploaded_cons_error (e : Exn) : uploaded (⟨call, .error e⟩ :: trace) = uploaded trace :=
  rfl

@[simp] theorem made_cons_ok (u : Unit) :
    made (⟨call, .ok u⟩ :: trace) = call.makes.toList ++ made trace := by
  show List.filterMap HubCall.makes (call :: Exchange.done trace) = _
  rw [List.filterMap_cons]
  cases call.makes <;> rfl

@[simp] theorem made_cons_error (e : Exn) : made (⟨call, .error e⟩ :: trace) = made trace := rfl

@[simp] theorem removed_cons (reply : Except Exn Unit) :
    removed (⟨call, reply⟩ :: trace) = call.removes.toList ++ removed trace := by
  unfold removed
  rw [List.filterMap_cons]
  cases call.removes <;> rfl

theorem uploaded_append : uploaded (trace ++ trace') = uploaded trace ++ uploaded trace' := by
  unfold uploaded
  rw [Exchange.done_append, List.filterMap_append]

theorem made_append : made (trace ++ trace') = made trace ++ made trace' := by
  unfold made
  rw [Exchange.done_append, List.filterMap_append]

theorem removed_append : removed (trace ++ trace') = removed trace ++ removed trace' :=
  List.filterMap_append

end Lists

/-- What the part after the repository was created leaves. -/
structure Part (r : UploadRequest) (result : Except Exn Unit) (block : List (Exchange HubCall)) :
    Prop where
  sound : result = .ok () → uploaded block = [r.repoName]
  complete : ∀ e, result = .error e →
    uploaded block = [] ∨ uploaded block = [r.repoName] ∧ CleanupRaised block
  tidy : removed block = made block
  raised : ∀ e, result = .error (.base e) → ∃ call, ⟨call, .error (.base e)⟩ ∈ block

theorem part_of_raise {r : UploadRequest} {e : Error} : Part r (.error (.exception e)) [] where
  sound h := by cases h
  complete _ _ := Or.inl rfl
  tidy := rfl
  raised _ h := by cases h

/-- A call that uploads, and makes and removes no directory. -/
theorem part_of_call {r : UploadRequest} {call : HubCall} (hcall : call.uploadsTo = some r.repoName)
    (hmakes : call.makes = none) (hremoves : call.removes = none) (reply : Except Exn Unit) :
    Part r reply [⟨call, reply⟩] := by
  cases reply with
  | ok u =>
    refine ⟨fun _ => ?_, nofun, ?_, nofun⟩
    · simp [hcall]
    · simp [hmakes, hremoves]
  | error e =>
    refine ⟨nofun, fun e' h => Or.inl rfl, ?_, fun e' h => ?_⟩
    · simp [hremoves]
    · exact ⟨call, by rw [h]; exact List.mem_singleton_self _⟩

theorem adds_uploadPath (r : UploadRequest) (path : String) : (uploadPath hub r path).Adds (Part r) := by
  refine Act.Adds.bind (Act.Adds.look fun found => ?_)
  show Act.Adds _ _
  cases found with
  | false => exact Act.Adds.raise part_of_raise
  | true =>
    refine Act.Adds.bind (Act.Adds.look fun isdir => ?_)
    show Act.Adds _ _
    cases isdir with
    | false => exact Act.Adds.tell fun reply => part_of_call rfl rfl rfl reply
    | true => exact Act.Adds.tell fun reply => part_of_call rfl rfl rfl reply

/-- How an upload ends and what it leaves in the trace. -/
structure Upload (r : UploadRequest) (result : Except Exn Bool) (block : List (Exchange HubCall)) :
    Prop where
  sound : result = .ok true → uploaded block = [r.repoName]
  complete : result ≠ .ok true →
    uploaded block = [] ∨ uploaded block = [r.repoName] ∧ CleanupRaised block
  tidy : removed block = made block
  created : ∀ e ∈ block, e.call.uploadsTo.isSome →
    [.ok (.api r.token), .ok (.createRepo r.repoName r.priv)] <+: block
  raised : ∀ e, result = .error e → (∃ base, e = .base base) ∧ ∃ call, ⟨call, .error e⟩ ∈ block

/-- Saving uploads, makes and removes nothing. -/
structure Saved (result : Except Exn Unit) (block : List (Exchange HubCall)) : Prop where
  uploaded : uploaded block = []
  made : made block = []
  removed : removed block = []
  raised : ∀ e, result = .error (.base e) → ∃ call, ⟨call, .error (.base e)⟩ ∈ block

theorem saved_of_call {call : HubCall} (hcall : call.uploadsTo = none) (hmakes : call.makes = none)
    (hremoves : call.removes = none) (reply : Except Exn Unit) : Saved reply [⟨call, reply⟩] := by
  refine ⟨?_, ?_, by simp [hremoves], fun e h => ?_⟩
  · cases reply <;> simp [hcall]
  · cases reply <;> simp [hmakes]
  · exact ⟨call, by rw [h]; exact List.mem_singleton_self _⟩

theorem adds_saveModel (savePretrained save : Bool) (tmpdir : String) :
    (saveModel hub savePretrained save tmpdir).Adds Saved := by
  unfold saveModel
  split_ifs
  · exact Act.Adds.tell fun reply => saved_of_call rfl rfl rfl reply
  · exact Act.Adds.tell fun reply => saved_of_call rfl rfl rfl reply
  · exact Act.Adds.raise ⟨rfl, rfl, rfl, nofun⟩

/-- What saving a model in a directory and uploading it leaves. -/
structure Sent (r : UploadRequest) (result : Except Exn Unit) (block : List (Exchange HubCall)) :
    Prop where
  sound : result = .ok () → uploaded block = [r.repoName]
  failed : ∀ e, result = .error e → uploaded block = []
  made : made block = []
  removed : removed block = []
  raised : ∀ e, result = .error (.base e) → ∃ call, ⟨call, .error (.base e)⟩ ∈ block

theorem adds_send (r : UploadRequest) (savePretrained save : Bool) (tmpdir : String) :
    Act.Adds (saveModel hub savePretrained save tmpdir >>= fun _ =>
      Act.tell hub.answer (.uploadFolder tmpdir r.repoName r.token)) (Sent r) := by
  refine Act.Adds.bind ((adds_saveModel hub savePretrained save tmpdir).mono ?_)
  rintro (e | u) block hsaved
  · exact ⟨nofun, fun _ _ => hsaved.uploaded, hsaved.made, hsaved.removed,
      fun e' h => hsaved.raised e' (by rw [Except.error.inj h])⟩
  · refine Act.then_ok.mpr (Act.Adds.tell fun reply => ?_)
    have hmade : made (block ++ [⟨.uploadFolder tmpdir r.repoName r.token, reply⟩]) = [] := by
      rw [made_append, hsaved.made]
      cases reply <;> rfl
    have hremoved : removed (block ++ [⟨.uploadFolder tmpdir r.repoName r.token, reply⟩]) = [] := by
      rw [removed_append, hsaved.removed]
      rfl
    have huploaded : uploaded (block ++ [⟨.uploadFolder tmpdir r.repoName r.token, reply⟩]) =
        uploaded [⟨.uploadFolder tmpdir r.repoName r.token, reply⟩] := by
      rw [uploaded_append, hsaved.uploaded, List.nil_append]
    cases reply with
    | ok u => exact ⟨fun _ => huploaded, nofun, hmade, hremoved, nofun⟩
    | error e =>
      refine ⟨nofun, fun _ _ => huploaded, hmade, hremoved, fun e' h => ?_⟩
      rw [h]
      exact ⟨_, List.mem_append_right _ (List.mem_singleton_self _)⟩

/-- The upload stands between the making and the removal of the temporary directory. -/
theorem adds_uploadObject (r : UploadRequest) (savePretrained save : Bool) :
    (uploadObject hub r savePretrained save).Adds (Part r) := by
  refine Act.Adds.bind (Act.Adds.look fun tmpdir => ?_)
  refine Act.Adds.bind (Act.Adds.tell fun reply => ?_)
  cases reply with
  | error e =>
    refine ⟨nofun, fun e' h => Or.inl rfl, rfl, fun e' h => ?_⟩
    exact ⟨.mkdtemp tmpdir, by rw [Except.error.inj h]; exact List.mem_singleton_self _⟩
  | ok u =>
    rw [Act.then_ok]
    refine Act.Adds.ensure ((adds_send hub r savePretrained save tmpdir).mono fun result block h => ?_)
    refine Act.Adds.tell fun reply => ?_
    have htidy : removed ([⟨.mkdtemp tmpdir, .ok u⟩] ++ (block ++ [⟨.cleanup tmpdir, reply⟩])) =
        made ([⟨.mkdtemp tmpdir, .ok u⟩] ++ (block ++ [⟨.cleanup tmpdir, reply⟩])) := by
      cases reply <;> simp [removed_append, made_append, h.removed, h.made, HubCall.removes,
        HubCall.makes]
    have huploaded : uploaded ([⟨.mkdtemp tmpdir, .ok u⟩] ++ (block ++ [⟨.cleanup tmpdir, reply⟩])) =
        uploaded block := by
      cases reply <;> simp [uploaded_append, HubCall.uploadsTo]
    cases reply with
    | ok u =>
      refine ⟨fun hok => huploaded.trans (h.sound hok),
        fun e he => Or.inl (huploaded.trans (h.failed e he)), htidy, fun e he => ?_⟩
      obtain ⟨call, hcall⟩ := h.raised e he
      exact ⟨call, List.mem_append_right _ (List.mem_append_left _ hcall)⟩
    | error e =>
      refine ⟨nofun, fun e' _ => ?_, htidy, fun e' he => ?_⟩
      · rw [huploaded]
        cases result with
        | error e'' => exact Or.inl (h.failed e'' rfl)
        | ok u' =>
          refine Or.inr ⟨h.sound rfl, tmpdir, e, ?_⟩
          exact List.mem_append_right _ (List.mem_append_right _ (List.mem_singleton_self _))
      · rw [he]
        exact ⟨.cleanup tmpdir, List.mem_append_right _ (List.mem_append_right _
          (List.mem_singleton_self _))⟩

theorem adds_uploadContent (r : UploadRequest) : (uploadContent hub r).Adds (Part r) := by
  unfold uploadContent
  cases r.model with
  | path path => exact adds_uploadPath hub r path
  | object savePretrained save => exact adds_uploadObject hub r savePretrained save

/-- How an upload that raised ends, once it is handled. -/
theorem upload_of_error {r : UploadRequest} {e : Exn} (block : List (Exchange HubCall))
    (hcomplete : uploaded block = [] ∨ uploaded block = [r.repoName] ∧ CleanupRaised block)
    (htidy : removed block = made block)
    (hcreated : ∀ x ∈ block, x.call.uploadsTo.isSome →
      [.ok (.api r.token), .ok (.createRepo r.repoName r.priv)] <+: block)
    (hraised : ∀ base, e = .base base → ∃ call, ⟨call, .error (.base base)⟩ ∈ block) :
    Act.Handled false (Upload r) (.error e) block := by
  cases e with
  | exception e => exact ⟨nofun, fun _ => hcomplete, htidy, hcreated, nofun⟩
  | base base =>
    refine ⟨nofun, fun _ => hcomplete, htidy, hcreated, fun e h => ?_⟩
    obtain rfl := Except.error.inj h
    exact ⟨⟨base, rfl⟩, hraised base rfl⟩

/-- The two calls before the content. -/
def opening (r : UploadRequest) : List (Exchange HubCall) :=
  [.ok (.api r.token), .ok (.createRepo r.repoName r.priv)]

theorem uploaded_opening (r : UploadRequest) (block : List (Exchange HubCall)) :
    uploaded (opening r ++ block) = uploaded block := by
  rw [uploaded_append]
  rfl

theorem tidy_opening {r : UploadRequest} {block : List (Exchange HubCall)}
    (h : removed block = made block) : removed (opening r ++ block) = made (opening r ++ block) := by
  rw [removed_append, made_append, h]
  rfl

theorem adds_uploadModel (r : UploadRequest) : (uploadModel hub r).Adds (Upload r) := by
  unfold uploadModel
  split_ifs
  · refine Act.Adds.orElse (Act.Adds.bind (Act.Adds.tell fun reply => ?_))
    cases reply with
    | error e =>
      refine Act.then_error.mpr (upload_of_error [⟨.api r.token, .error e⟩] (Or.inl rfl) rfl
        (fun x hx h => ?_) fun base h => ?_)
      · rw [List.mem_singleton.mp hx] at h
        cases h
      · exact ⟨.api r.token, by rw [h]; exact List.mem_singleton_self _⟩
    | ok u =>
      refine Act.then_ok.mpr (Act.Adds.bind (Act.Adds.tell fun reply => ?_))
      cases reply with
      | error e =>
        refine Act.then_error.mpr (upload_of_error
          [⟨.api r.token, .ok u⟩, ⟨.createRepo r.repoName r.priv, .error e⟩] (Or.inl rfl) rfl
          (fun x hx h => ?_) fun base h => ?_)
        · rcases List.mem_pair.mp hx with rfl | rfl <;> cases h
        · rw [h]
          exact ⟨.createRepo r.repoName r.priv, List.mem_cons_of_mem _ (List.mem_singleton_self _)⟩
      | ok u' =>
        refine Act.then_ok.mpr (Act.Adds.bind ((adds_uploadContent hub r).mono ?_))
        rintro (e | u'') block hpart
        · refine Act.then_error.mpr (upload_of_error (opening r ++ block) ?_
            (tidy_opening hpart.tidy) (fun _ _ _ => List.prefix_append _ block) fun base h => ?_)
          · rw [uploaded_opening]
            refine (hpart.complete e rfl).imp_right ?_
            rintro ⟨hup, dir, e', hmem⟩
            exact ⟨hup, dir, e', List.mem_append_right _ hmem⟩
          · obtain ⟨call, hcall⟩ := hpart.raised base (by rw [h])
            exact ⟨call, List.mem_append_right _ hcall⟩
        · refine Act.then_ok.mpr (Act.Adds.pure ?_)
          rw [List.append_nil]
          exact ⟨fun _ => (uploaded_opening r block).trans (hpart.sound rfl), fun h => absurd rfl h,
            tidy_opening hpart.tidy, fun _ _ _ => List.prefix_append _ block, nofun⟩
  · exact Act.Adds.pure ⟨nofun, fun _ => Or.inl rfl, rfl, nofun, nofun⟩

/-! ## Histories of uploads -/

/-- The trace after an upload. -/
def step (trace : List (Exchange HubCall)) (r : UploadRequest) : List (Exchange HubCall) :=
  (uploadModel hub r trace).2

/-- The uploads of a history, and how they ended. -/
def uploads (rs : List UploadRequest) : List (UploadRequest × Except Exn Bool) :=
  log (step hub) (fun trace r => [(r, (uploadModel hub r trace).1)]) [] rs

theorem fst_uploads (rs : List UploadRequest) : (uploads hub rs).map Prod.fst = rs := by
  unfold uploads
  induction rs using List.reverseRecOn with
  | nil => rfl
  | append_singleton rs r ih => rw [log_snoc, List.map_append, ih]; rfl

/-- **Uploads.** A history falls into blocks, one for each upload in order, and each block tells of its
own upload alone: the upload returned true only if it was completed, and was completed only if it
returned true or its temporary directory could not be removed; the repository was created before it
was uploaded to; a directory that was made was removed or tried to be; and the upload raised only a
`BaseException` that one of its calls raised. -/
theorem uploads_run (rs : List UploadRequest) :
    (uploads hub rs).map Prod.fst = rs ∧
    ∃ blocks, run (step hub) [] rs = blocks.flatten ∧
      List.Forall₂ (fun upload block => Upload upload.1 upload.2 block) (uploads hub rs) blocks := by
  refine ⟨fst_uploads hub rs, ?_⟩
  unfold uploads
  induction rs using List.reverseRecOn with
  | nil => exact ⟨[], rfl, List.Forall₂.nil⟩
  | append_singleton rs r ih =>
    obtain ⟨blocks, hrun, hblocks⟩ := ih
    obtain ⟨block, hstep, hupload⟩ := adds_uploadModel hub r (run (step hub) [] rs)
    refine ⟨blocks ++ [block], ?_, ?_⟩
    · rw [run_snoc, step, hstep, hrun, List.flatten_append, List.flatten_singleton]
    · rw [log_snoc]
      exact List.rel_append hblocks (List.Forall₂.cons hupload List.Forall₂.nil)

end HuggingFaceRegistry

end PyStreamAI
