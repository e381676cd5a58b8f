import Mathlib.Logic.Function.Basic
import PyStreamAI.Py.Dict
import PyStreamAI.Py.JsonIndent
import PyStreamAI.Py.Path

/-!
# Packaging manifests

`build_manifest` describes a model file and `write_manifest` writes the description down. The file
is read back as it was written, and its text does not depend on the order of the dependencies, only
on that of the labels: two manifests have one text exactly when they describe the same and list
their labels in one order (`text_eq_iff`).
-/

open Py

namespace PyStreamAI

namespace Bentoml

/-- The arguments of `build_manifest`. -/
structure Description where
  name : String
  modelPath : String
  apiName : String := "predict"
  pythonVersion : String := "3.11"
  dependencies : Option (List String) := none
  labels : Option (Dict String String) := none

/-- `sorted(texts)`. -/
def sortTexts (texts : List String) : List String := texts.insertionSort (· ≤ ·)

namespace Description

variable (d : Description)

/-- `dependencies or []`. -/
def dependencyList : List String := d.dependencies.getD []

/-- `labels or {}`. -/
def labelList : List (String × String) := (d.labels.getD ∅).entries

/-- The dictionary that `build_manifest` returns for a file of `size` bytes. -/
def manifest (size : ℕ) : Json :=
  .obj [("name", .str d.name),
    ("model", .obj [("path", .str (Path.ofString d.modelPath).toStr), ("size_bytes", .int size)]),
    ("api", .obj [("name", .str d.apiName), ("input", .str "json"), ("output", .str "json")]),
    ("python_version", .str d.pythonVersion),
    ("dependencies", .arr ((sortTexts d.dependencyList).map .str)),
    ("labels", .obj (d.labelList.map fun e => (e.1, .str e.2)))]

end Description

/-- What `build_manifest` asks about a path. -/
structure Stat where
  pathExists : Path → Except Exn Bool
  size : Path → Except Exn ℕ

/-- `build_manifest(..)`. -/
def buildManifest (stat : Stat) (d : Description) : Except Exn Json := do
  if ← stat.pathExists (.ofString d.modelPath) then
    return d.manifest (← stat.size (.ofString d.modelPath))
  else throw (.exception ⟨"FileNotFoundError", d.modelPath⟩)

/-- `json.dumps(manifest, indent=2)`. -/
def text (manifest : Json) : String := manifest.dumpsIndent 2 false

/-- How files are written: the file that a path leads to when it is opened, which other paths may
lead to as well, and how writing a text to it fails, with what it holds then. -/
structure Writing (I : Type) where
  openFile : Path → Except Exn I
  failure : I → String → Option (Exn × String)

/-- The texts of the files. -/
abbrev Texts (I : Type) := I → Option String

section Write

variable {I : Type} [DecidableEq I]

/-- `p.write_text(text)`. The file is emptied when it is opened, so a failure leaves little of what
it held. -/
def writeText (w : Writing I) (files : Texts I) (p : Path) (text : String) :
    Except Exn Unit × Texts I :=
  match w.openFile p with
  | .error e => (.error e, files)
  | .ok file =>
    match w.failure file text with
    | none => (.ok (), Function.update files file (some text))
    | some (e, left) => (.error e, Function.update files file (some left))

/-- `write_manifest(manifest, path)`. -/
def writeManifest (w : Writing I) (files : Texts I) (manifest : Json) (path : String) :
    Except Exn String × Texts I :=
  match writeText w files (.ofString path) (text manifest) with
  | (.ok _, files) => (.ok path, files)
  | (.error e, files) => (.error e, files)

end Write

/-- Two descriptions of the same: of one path to a file of one size, with the same dependencies and
the same labels in any order. -/
structure Same (stat stat' : Stat) (d d' : Description) : Prop where
  name : d.name = d'.name
  path : (Path.ofString d.modelPath).toStr = (Path.ofString d'.modelPath).toStr
  size : stat.size (.ofString d.modelPath) = stat'.size (.ofString d'.modelPath)
  apiName : d.apiName = d'.apiName
  pythonVersion : d.pythonVersion = d'.pythonVersion
  dependencies : d.dependencyList.Perm d'.dependencyList
  labels : d.labelList.Perm d'.labelList

theorem sortTexts_eq_iff {ts ts' : List String} : sortTexts ts = sortTexts ts' ↔ ts.Perm ts' := by
  have hperm := fun ts : List String => List.perm_insertionSort (· ≤ ·) ts
  constructor
  · intro h
    have hts := hperm ts'
    rw [show ts'.insertionSort (· ≤ ·) = ts.insertionSort (· ≤ ·) from h.symm] at hts
    exact (hperm ts).symm.trans hts
  · intro h
    refine List.Perm.eq_of_pairwise' (List.pairwise_insertionSort (· ≤ ·) ts)
      (List.pairwise_insertionSort (· ≤ ·) ts') ?_
    exact ((hperm ts).trans h).trans (hperm ts').symm

/-- Different values have different texts. -/
theorem dumpsIndent_inj {indent : ℕ} {j j' : Json}
    (h : j.dumpsIndent indent false = j'.dumpsIndent indent false) : j = j' := by
  have hj := Json.loads_dumpsIndent indent false j
  rw [h, Json.loads_dumpsIndent] at hj
  exact (Option.some.inj hj).symm

theorem map_str_inj {ts ts' : List String} (h : ts.map Json.str = ts'.map Json.str) : ts = ts' :=
  List.map_injective_iff.mpr (fun _ _ => Json.str.inj) h

theorem map_labels_inj {es es' : List (String × String)}
    (h : (es.map fun e => (e.1, Json.str e.2)) = es'.map fun e => (e.1, Json.str e.2)) :
    es = es' := by
  refine List.map_injective_iff.mpr (fun e e' he => ?_) h
  exact Prod.ext (Prod.mk.inj he).1 (Json.str.inj (Prod.mk.inj he).2)

theorem loads_text (m : Json) : Json.loads (text m).toList = some m := by
  unfold text
  rw [Json.loads_dumpsIndent]
  rfl

/-- A manifest that was built tells the size of the file. -/
theorem of_buildManifest {stat : Stat} {d : Description} {m : Json}
    (h : buildManifest stat d = .ok m) :
    ∃ n, stat.size (.ofString d.modelPath) = .ok n ∧ m = d.manifest n := by
  obtain ⟨b, -, h⟩ := bind_eq_ok h
  cases b with
  | false => cases h
  | true =>
    obtain ⟨n, hn, h⟩ := bind_eq_ok h
    exact ⟨n, hn, (Except.ok.inj h).symm⟩

theorem manifest_eq_iff {d d' : Description} {n n' : ℕ} :
    d.manifest n = d'.manifest n' ↔ d.name = d'.name ∧
      (Path.ofString d.modelPath).toStr = (Path.ofString d'.modelPath).toStr ∧ n = n' ∧
      d.apiName = d'.apiName ∧ d.pythonVersion = d'.pythonVersion ∧
      d.dependencyList.Perm d'.dependencyList ∧ d.labelList = d'.labelList := by
  unfold Description.manifest
  constructor
  · intro h
    simp only [Json.obj.injEq, List.cons.injEq, Prod.mk.injEq, Json.str.injEq, Json.int.injEq,
      Json.arr.injEq, true_and, and_true] at h
    obtain ⟨hname, ⟨hpath, hsize⟩, hapi, hversion, hdeps, hlabels⟩ := h
    exact ⟨hname, hpath, by omega, hapi, hversion, sortTexts_eq_iff.mp (map_str_inj hdeps),
      map_labels_inj hlabels⟩
  · rintro ⟨hname, hpath, rfl, hapi, hversion, hdeps, hlabels⟩
    rw [hname, hpath, hapi, hversion, sortTexts_eq_iff.mpr hdeps, hlabels]

theorem text_eq_text_iff {stat stat' : Stat} {d d' : Description} {m m' : Json}
    (hm : buildManifest stat d = .ok m) (hm' : buildManifest stat' d' = .ok m') :
    text m = text m' ↔ Same stat stat' d d' ∧ d.labelList = d'.labelList := by
  obtain ⟨n, hn, rfl⟩ := of_buildManifest hm
  obtain ⟨n', hn', rfl⟩ := of_buildManifest hm'
  constructor
  · intro h
    obtain ⟨hname, hpath, rfl, hapi, hversion, hdeps, hlabels⟩ :=
      manifest_eq_iff.mp (dumpsIndent_inj h)
    exact ⟨⟨hname, hpath, hn.trans hn'.symm, hapi, hversion, hdeps, .of_eq hlabels⟩, hlabels⟩
  · rintro ⟨⟨hname, hpath, hsize, hapi, hversion, hdeps, -⟩, hlabels⟩
    rw [hn, hn'] at hsize
    exact congrArg text (manifest_eq_iff.mpr
      ⟨hname, hpath, Except.ok.inj hsize, hapi, hversion, hdeps, hlabels⟩)

section Written

variable {I : Type} [DecidableEq I] {w : Writing I} {files : Texts I} {m : Json} {path : String}

theorem writeManifest_other {other : I} (hother : w.openFile (.ofString path) ≠ .ok other) :
    (writeManifest w files m path).2 other = files other := by
  unfold writeManifest writeText
  cases hopen : w.openFile (.ofString path) with
  | error e => rfl
  | ok file =>
    have hne : other ≠ file := by
      rintro rfl
      exact hother hopen
    cases hfailure : w.failure file (text m) with
    | none =>
      dsimp only
      rw [hfailure]
      exact Function.update_of_ne hne _ _
    | some failed =>
      dsimp only
      rw [hfailure]
      exact Function.update_of_ne hne _ _

theorem writeManifest_of_ok {s : String} (hs : (writeManifest w files m path).1 = .ok s) :
    s = path ∧ ∃ file, w.openFile (.ofString path) = .ok file ∧
      (writeManifest w files m path).2 file = some (text m) := by
  unfold writeManifest writeText at hs ⊢
  cases hopen : w.openFile (.ofString path) with
  | error e =>
    rw [hopen] at hs
    cases hs
  | ok file =>
    rw [hopen] at hs
    dsimp only at hs ⊢
    cases hfailure : w.failure file (text m) with
    | some failed =>
      rw [hfailure] at hs
      cases hs
    | none =>
      rw [hfailure] at hs
      obtain rfl := Except.ok.inj hs
      exact ⟨rfl, file, rfl, Function.update_self _ _ _⟩

end Written

/-- **The text of a manifest.** Writing a manifest that was built changes no file but the one its
path leads to. When it returns, that file holds the text of the manifest, which is read back as the
manifest. Two manifests have one text exactly when they describe the same and list their labels in
one order. -/
theorem text_eq_iff {I : Type} [DecidableEq I] {stat stat' : Stat} {d d' : Description}
    {m m' : Json} (hm : buildManifest stat d = .ok m) (hm' : buildManifest stat' d' = .ok m')
    (w : Writing I) (files : Texts I) (path : String) :
    (∀ file, w.openFile (.ofString path) ≠ .ok file →
      (writeManifest w files m path).2 file = files file) ∧
    (∀ s, (writeManifest w files m path).1 = .ok s → s = path ∧
      ∃ file, w.openFile (.ofString path) = .ok file ∧
        (writeManifest w files m path).2 file = some (text m)) ∧
    Json.loads (text m).toList = some m ∧
    (text m = text m' ↔ Same stat stat' d d' ∧ d.labelList = d'.labelList) :=
  ⟨fun _ => writeManifest_other, fun _ => writeManifest_of_ok, loads_text m,
    text_eq_text_iff hm hm'⟩

/-- One model described twice, the dependencies listed in either order. -/
theorem text_eq_reordered :
    let stat : Stat := ⟨fun p => .ok (decide (p = ⟨"", ["model.onnx"]⟩)), fun _ => .ok 4096⟩
    let d : Description := { name := "m", modelPath := "model.onnx"
                             dependencies := some ["numpy", "bentoml"] }
    let d' : Description := { name := "m", modelPath := "./model.onnx"
                              dependencies := some ["bentoml", "numpy"] }
    let w : Writing Path := ⟨.ok, fun _ _ => none⟩
    buildManifest stat d = .ok (d.manifest 4096) ∧
    (writeManifest w (fun _ => none) (d.manifest 4096) "a.json").1 = .ok "a.json" ∧
    text (d.manifest 4096) = text (d'.manifest 4096) := by
  intro stat d d' w
  have hpath : Path.ofString d.modelPath = ⟨"", ["model.onnx"]⟩ := by decide +kernel
  have hpath' : Path.ofString d'.modelPath = ⟨"", ["model.onnx"]⟩ := by decide +kernel
  have hm : buildManifest stat d = .ok (d.manifest 4096) := by
    unfold buildManifest
    rw [hpath]
    rfl
  have hm' : buildManifest stat d' = .ok (d'.manifest 4096) := by
    unfold buildManifest
    rw [hpath']
    rfl
  have hsame : Same stat stat d d' := by
    refine ⟨rfl, ?_, rfl, rfl, rfl, List.Perm.swap _ _ _, List.Perm.refl _⟩
    rw [hpath, hpath']
  exact ⟨hm, rfl, (text_eq_iff hm hm' w (fun _ => none) "a.json").2.2.2.mpr ⟨hsame, rfl⟩⟩

end Bentoml

end PyStreamAI
