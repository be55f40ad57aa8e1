/-
# The config commands on two versions of a file

Planning two versions of a dotenv file reports the same changes, and applying the two plans
fails in the same way on both sides or on neither. The two runs differ in the contents of the
file and in the records that hold them.
-/

import PortForge.Agent.ConfigOutput
import PortForge.Agent.DotenvVersions
import PortForge.Effects.PairedRuns

namespace Agent

open Python Effects

variable {Document Documents : Type} (W : Workspace Document Documents)

/-- The keys that the manifest maps in the file at the path. -/
def mappedKeys (config : ConfigMappings) (path : Path) : List String :=
  (config.dotenv.filter fun mapping => W.locate mapping.file = path).flatMap fun mapping =>
    mapping.values.map Prod.fst

/-- The manifest does not map the file at the path as a Compose or Kubernetes file. -/
structure NoYaml (config : ConfigMappings) (path : Path) : Prop where
  compose : ∀ mapping ∈ config.compose, W.locate mapping.file ≠ path
  kubernetes : ∀ mapping ∈ config.kubernetes, W.locate mapping.file ≠ path

/-! ## Two versions planned -/

/-- The records of one file in two plans that may differ in the content of the file at the path.
That content is then told apart if `same` fails. -/
structure FileRecord.Twin (path : Path) (same : Prop) (file file' : FileRecord) : Prop where
  relativePath : file.relativePath = file'.relativePath
  kind : file.kind = file'.kind
  action : file.action = file'.action
  other : file.target W ≠ path → file = file'
  dotenv : file.target W = path → file.kind = .dotenv ∧ (file.newContent = file'.newContent → same)

/-- The two disks are left as they are. -/
def OnlyRead (d d' t t' : AgentDisk) : Prop := t = d ∧ t' = d'

variable {W} {d d' : AgentDisk} {path : Path} {same : Prop} {text text' : String}

/-- Two plans of one file. -/
def PlannedFile.Twin (W : Workspace Document Documents) (path : Path) (same : Prop)
    (file file' : PlannedFile) : Prop :=
  file.record.Twin W path same file'.record ∧ file.changes = file'.changes

theorem PlannedFile.twin_refl {file : PlannedFile} (h : W.locate file.relativePath ≠ path) :
    file.Twin W path same file :=
  ⟨⟨rfl, rfl, rfl, fun _ => rfl, fun hpath => (h hpath).elim⟩, rfl⟩

theorem twin_records {files files' : List PlannedFile}
    (h : List.Forall₂ (PlannedFile.Twin W path same) files files') :
    List.Forall₂ (FileRecord.Twin W path same) (files.map PlannedFile.record)
      (files'.map PlannedFile.record) := by
  rw [List.forall₂_map_left_iff, List.forall₂_map_right_iff]
  exact h.imp fun _ _ htwin => htwin.1

/-- Plans of the files of some mappings. -/
def TwinFiles (W : Workspace Document Documents) (path : Path) (same : Prop) {α : Type}
    (file : α → String) (mappings : List α) (files files' : List PlannedFile) : Prop :=
  List.Forall₂ (PlannedFile.Twin W path same) files files' ∧
    files.map PlannedFile.relativePath = mappings.map file

/-- How two parts of commands that agree end. -/
theorem onDisk_of_agree {α α' : Type} {returned : α → α' → AgentDisk → AgentDisk → Prop}
    {raised : AgentDisk → AgentDisk → Prop} {task : Task α} {task' : Task α'}
    (h : Program.Agree Disk.handle returned raised task task' d d') :
    (∃ failure t t', onDisk task d = (.error failure, t) ∧ onDisk task' d' = (.error failure, t') ∧
        raised t t') ∨
      ∃ value value' t t', onDisk task d = (.ok value, t) ∧ onDisk task' d' = (.ok value', t') ∧
        returned value value' t t' := h

theorem agree_readFile (target : Path) {raised : AgentDisk → AgentDisk → Prop} :
    Program.Agree Disk.handle
      (fun found found' t t' => (found = bytesAt d target ∧ found' = bytesAt d' target) ∧
        OnlyRead d d' t t') raised (readFile target) (readFile target) d d' :=
  .inr ⟨_, _, d, d', rfl, rfl, ⟨rfl, rfl⟩, rfl, rfl⟩

/-- A result that is computed once agrees with itself. -/
theorem agree_computed {α : Type} (result : Except ConfigFailure α) :
    Program.Agree Disk.handle
      (fun value value' t t' => (result = .ok value ∧ value' = value) ∧ OnlyRead d d' t t')
      (OnlyRead d d') (Program.ofExcept result) (Program.ofExcept result) d d' := by
  cases result with
  | error failure => exact Program.agree_raise ⟨rfl, rfl⟩
  | ok value => exact Program.agree_ret ⟨⟨rfl, rfl⟩, rfl, rfl⟩

section Plan

variable (hfile : bytesAt d path = some text.toUTF8) (hfile' : bytesAt d' path = some text'.toUTF8)
  (hother : ∀ other, other ≠ path → bytesAt d other = bytesAt d' other)

include hfile hfile' hother

theorem agree_planDotenvFile {keys : List String} {mapping : DotenvFileMapping}
    {ports : List (String × ℕ)} (hversions : Versions keys text text') (hnamed : mapping.Named)
    (hkeys : W.locate mapping.file = path → ∀ entry ∈ mapping.values, entry.1 ∈ keys) :
    Program.Agree Disk.handle
      (fun file file' t t' => (file.Twin W path (text = text') file' ∧
        file.relativePath = mapping.file) ∧ OnlyRead d d' t t') (OnlyRead d d')
      (planDotenvFile W mapping ports) (planDotenvFile W mapping ports) d d' := by
  refine (agree_computed (resolveMapped W mapping.file)).bind ?_
  rintro _ target _ _ ⟨⟨htarget, rfl⟩, rfl, rfl⟩
  obtain ⟨-, rfl⟩ := resolveMapped_eq_ok htarget
  refine (agree_readFile (W.locate mapping.file)).bind ?_
  rintro _ _ _ _ ⟨⟨rfl, rfl⟩, rfl, rfl⟩
  by_cases hpath : W.locate mapping.file = path
  · rw [hpath, hfile, hfile']
    rcases dotenvContent_versions ports hversions hnamed (hkeys hpath) with
      ⟨failure, hcontent, hcontent'⟩ | ⟨new, new', changes, hcontent, hcontent', hsame⟩
    · rw [hcontent, hcontent']
      exact Program.agree_raise ⟨rfl, rfl⟩
    · rw [hcontent, hcontent']
      exact Program.agree_ret ⟨⟨⟨⟨rfl, rfl, rfl, fun hne => (hne hpath).elim,
        fun _ => ⟨rfl, hsame⟩⟩, rfl⟩, rfl⟩, rfl, rfl⟩
  · rw [hother _ hpath]
    refine (agree_computed _).bind ?_
    rintro ⟨_, _⟩ ⟨new, changes⟩ _ _ ⟨⟨-, heq⟩, rfl, rfl⟩
    cases heq
    exact Program.agree_ret ⟨⟨PlannedFile.twin_refl hpath, rfl⟩, rfl, rfl⟩

omit hfile hfile' in
/-- Compose and Kubernetes files are planned in one way, but for the editor. -/
theorem agree_planYaml {file : String} (same : Prop) (label : String) (kind : FileKind)
    (content : String → Except ConfigFailure (String × List Change))
    (hpath : W.locate file ≠ path) (plan : Task PlannedFile)
    (hplan : plan = do
      let target ← Program.ofExcept (resolveMapped W file)
      let found ← readFile target
      let original ← Program.ofExcept (requireOriginal label file found)
      let originalText ← Program.ofExcept (decode original)
      let (newText, changes) ← Program.ofExcept (content originalText)
      pure (plannedYaml W kind file original originalText newText changes)) :
    Program.Agree Disk.handle
      (fun planned planned' t t' => (planned.Twin W path same planned' ∧
        planned.relativePath = file) ∧ OnlyRead d d' t t') (OnlyRead d d') plan plan d d' := by
  rw [hplan]
  refine (agree_computed (resolveMapped W file)).bind ?_
  rintro _ target _ _ ⟨⟨htarget, rfl⟩, rfl, rfl⟩
  obtain ⟨-, rfl⟩ := resolveMapped_eq_ok htarget
  refine (agree_readFile (W.locate file)).bind ?_
  rintro _ _ _ _ ⟨⟨rfl, rfl⟩, rfl, rfl⟩
  rw [hother _ hpath]
  refine (agree_computed _).bind ?_
  rintro _ original _ _ ⟨⟨-, rfl⟩, rfl, rfl⟩
  refine (agree_computed _).bind ?_
  rintro _ originalText _ _ ⟨⟨-, rfl⟩, rfl, rfl⟩
  refine (agree_computed _).bind ?_
  rintro _ ⟨new, changes⟩ _ _ ⟨⟨-, rfl⟩, rfl, rfl⟩
  exact Program.agree_ret ⟨⟨PlannedFile.twin_refl hpath, rfl⟩, rfl, rfl⟩

omit hfile hfile' hother in
/-- Plans of all mappings agree where those of each do. -/
theorem agree_planAll {α : Type} {plan : α → Task PlannedFile} {mappings : List α}
    (file : α → String)
    (h : ∀ mapping ∈ mappings, Program.Agree Disk.handle
      (fun planned planned' t t' => (planned.Twin W path same planned' ∧
        planned.relativePath = file mapping) ∧ OnlyRead d d' t t') (OnlyRead d d')
      (plan mapping) (plan mapping) d d') :
    Program.Agree Disk.handle
      (fun files files' t t' => TwinFiles W path same file mappings files files' ∧
        OnlyRead d d' t t') (OnlyRead d d')
      (planAll plan mappings) (planAll plan mappings) d d' := by
  induction mappings with
  | nil => exact Program.agree_ret ⟨⟨.nil, rfl⟩, rfl, rfl⟩
  | cons mapping mappings ih =>
      obtain ⟨hfirst, hrest⟩ := List.forall_mem_cons.mp h
      refine hfirst.bind ?_
      rintro planned planned' _ _ ⟨⟨htwin, hname⟩, rfl, rfl⟩
      refine (ih hrest).bind ?_
      rintro files files' _ _ ⟨⟨htwins, hnames⟩, rfl, rfl⟩
      refine Program.agree_ret ⟨⟨.cons htwin htwins, ?_⟩, rfl, rfl⟩
      rw [List.map_cons, List.map_cons, hname, hnames]

variable {data : List (Scalar × Value)} {manifest : ProjectManifest} {config : ConfigMappings}
  (hmanifest : validateManifest data = .ok manifest) (hconfig : manifest.config = some config)
  (hversions : Versions (mappedKeys W config path) text text')

include hmanifest hconfig hversions

/-- The dotenv files of the manifest. -/
theorem agree_planDotenvFiles (ports : List (String × ℕ)) :
    Program.Agree Disk.handle
      (fun files files' t t' =>
        TwinFiles W path (text = text') DotenvFileMapping.file config.dotenv files files' ∧
          OnlyRead d d' t t') (OnlyRead d d')
      (planAll (fun mapping => planDotenvFile W mapping ports) config.dotenv)
      (planAll (fun mapping => planDotenvFile W mapping ports) config.dotenv) d d' := by
  refine agree_planAll DotenvFileMapping.file fun mapping hmapping => ?_
  refine agree_planDotenvFile hfile hfile' hother hversions
    (named_of_validateManifest hmanifest hconfig hmapping) fun hpath entry hentry => ?_
  have hmem : mapping ∈ config.dotenv.filter fun mapping => W.locate mapping.file = path :=
    List.mem_filter.mpr ⟨hmapping, decide_eq_true hpath⟩
  exact List.mem_flatMap.mpr ⟨mapping, hmem, List.mem_map_of_mem hentry⟩

/-- Plans of two versions differ at most in the content of the file. -/
theorem agree_buildPlan (hyaml : NoYaml W config path) (allocation : AllocationData)
    (mutationId createdAt : String) :
    Program.Agree Disk.handle
      (fun plan plan' t t' => (plan' = { plan with files := plan'.files } ∧
        (plan.mutationId = mutationId ∧ plan.allocationId = allocation.allocationId) ∧
        List.Forall₂ (PlannedFile.Twin W path (text = text')) plan.files plan'.files) ∧
          OnlyRead d d' t t')
      (OnlyRead d d') (buildPlan W manifest allocation mutationId createdAt)
      (buildPlan W manifest allocation mutationId createdAt) d d' := by
  rw [buildPlan, hconfig]
  dsimp only
  split
  · exact Program.agree_raise ⟨rfl, rfl⟩
  · refine (agree_planDotenvFiles hfile hfile' hother hmanifest hconfig hversions _).bind ?_
    rintro dotenv dotenv' _ _ ⟨⟨hdotenv, -⟩, rfl, rfl⟩
    refine (agree_planAll ComposeFileMapping.file fun mapping hmapping =>
      agree_planYaml hother (text = text') "Compose" .compose (composeContent W mapping _)
        (hyaml.compose mapping hmapping) _ rfl).bind ?_
    rintro compose compose' _ _ ⟨⟨hcompose, -⟩, rfl, rfl⟩
    refine (agree_planAll KubernetesFileMapping.file fun mapping hmapping =>
      agree_planYaml hother (text = text') "Kubernetes" .kubernetes (kubernetesContent W mapping _)
        (hyaml.kubernetes mapping hmapping) _ rfl).bind ?_
    rintro kubernetes kubernetes' _ _ ⟨⟨hkubernetes, -⟩, rfl, rfl⟩
    exact Program.agree_ret ⟨⟨rfl, ⟨rfl, rfl⟩,
      List.rel_append (List.rel_append hdotenv hcompose) hkubernetes⟩, rfl, rfl⟩

end Plan

/-! ## Two versions applied -/

/-- What the two disks hold at a place: files that exist on both or on neither, and are equal but
for the one at the path, and the two records of the mutation. -/
def SidesOf (path : Path) (record record' : MutationRecord) :
    (place : Location) → Option (Content place) → Option (Content place) → Prop
  | .file other, found, found' => found.isSome = found'.isSome ∧ (other ≠ path → found = found')
  | .record mutationId, found, found' =>
      mutationId = record.mutationId → found = some record ∧ found' = some record'
  | .backup _ _, _, _ => True

/-- Two files whose contents are put back, or are not there. -/
structure SameWrite (path : Path) (entry entry' : Path × Option ByteArray) : Prop where
  target : entry.1 = entry'.1
  exists_iff : entry.2.isSome = entry'.2.isSome
  other : entry.1 ≠ path → entry.2 = entry'.2

/-- Two prepared files. -/
structure Prepared.Twin (W : Workspace Document Documents) (path : Path) (same : Prop)
    (prepared prepared' : Prepared) : Prop where
  file : prepared.file.Twin W path same prepared'.file
  target : prepared.target = prepared.file.target W
  undo : SameWrite path prepared.undo prepared'.undo

section Apply

variable {record record' : MutationRecord} {mutationId : String}

/-- A write that keeps the disks alike. -/
theorem agree_writeAlike {site : Site} {location : Location} {content content' : Content location}
    (halike : d.Alike (SidesOf path record record') d')
    (hside : SidesOf path record record' location (some content) (some content')) :
    Program.Agree Disk.handle (fun _ _ t t' => t.Alike (SidesOf path record record') t')
      (fun t t' => t.Alike (SidesOf path record record') t')
      (atomicWrite site location content) (atomicWrite site location content') d d' :=
  Disk.agree_write halike.faults (Program.agree_ret ((halike.passed site).put hside)) fun _ =>
    Program.agree_raise (halike.passed site)

/-- Two records are saved, or neither is. -/
theorem agree_saveRecord {site : Site} {saved saved' : MutationRecord}
    {raised : AgentDisk → AgentDisk → Prop} (hfaults : d.faults = d'.faults)
    (hfailed : raised (d.passed site) (d'.passed site)) :
    Program.Agree Disk.handle
      (fun _ _ t t' => t = (d.passed site).put (.record saved.mutationId) (some saved) ∧
        t' = (d'.passed site).put (.record saved'.mutationId) (some saved')) raised
      (saveRecord site saved) (saveRecord site saved') d d' := by
  cases hfault : d.faults site 0 with
  | none => exact .inr ⟨(), (), _, _, onDisk_atomicWrite_of_none hfault,
      onDisk_atomicWrite_of_none (hfaults ▸ hfault), rfl, rfl⟩
  | some error => exact .inl ⟨.os error, _, _, onDisk_atomicWrite_of_some hfault,
      onDisk_atomicWrite_of_some (hfaults ▸ hfault), hfailed⟩

theorem agree_restoreFile {site : Site} {target : Path} {original original' : Option ByteArray}
    (halike : d.Alike (SidesOf path record record') d')
    (hsame : SameWrite path (target, original) (target, original')) :
    Program.Agree Disk.handle (fun _ _ t t' => t.Alike (SidesOf path record record') t')
      (fun t t' => t.Alike (SidesOf path record record') t')
      (restoreFile site target original) (restoreFile site target original') d d' := by
  have hside : SidesOf path record record' (.file target) original original' :=
    ⟨hsame.exists_iff, hsame.other⟩
  have hput := (halike.passed site).put hside
  cases original with
  | none =>
      cases original' with
      | none => exact Disk.agree_unlink halike.faults (Program.agree_ret hput) fun _ =>
          Program.agree_raise (halike.passed site)
      | some bytes' => cases hsame.exists_iff
  | some bytes =>
      cases original' with
      | none => cases hsame.exists_iff
      | some bytes' => exact agree_writeAlike halike hside

theorem agree_restoreAll {site : Site} {entries entries' : List (Path × Option ByteArray)}
    (halike : d.Alike (SidesOf path record record') d')
    (hsame : List.Forall₂ (SameWrite path) entries entries') :
    Program.Agree Disk.handle (fun _ _ t t' => t.Alike (SidesOf path record record') t')
      (fun t t' => t.Alike (SidesOf path record record') t')
      (restoreAll site entries) (restoreAll site entries') d d' := by
  induction hsame generalizing d d' with
  | nil => exact Program.agree_ret halike
  | @cons entry entry' entries entries' hfirst _ ih =>
      obtain ⟨target, original⟩ := entry
      obtain ⟨target', original'⟩ := entry'
      obtain rfl : target = target' := hfirst.target
      refine (agree_restoreFile halike hfirst).bind ?_
      exact fun _ _ t t' h => ih h

/-- The backups succeed or fail together. -/
theorem agree_backUp {files files' : List FileRecord}
    (halike : d.Alike (SidesOf path record record') d')
    (hfiles : List.Forall₂ (FileRecord.Twin W path same) files files') :
    Program.Agree Disk.handle
      (fun prepared prepared' t t' => List.Forall₂ (Prepared.Twin W path same) prepared prepared' ∧
        t.Alike (SidesOf path record record') t')
      (fun t t' => t.Alike (SidesOf path record record') t')
      (backUp W mutationId files) (backUp W mutationId files') d d' := by
  induction hfiles generalizing d d' with
  | nil => exact Program.agree_ret ⟨.nil, halike⟩
  | @cons file file' files files' hfirst _ ih =>
      rw [backUp, backUp, ← hfirst.relativePath]
      by_cases hinside : file.Inside W
      case neg =>
        obtain ⟨failure, hresolve⟩ := resolveWithinRoot_of_not_inside hinside
        rw [hresolve]
        exact Program.agree_raise halike
      rw [resolveWithinRoot_of_inside hinside]
      refine (agree_readFile (file.target W)).bind ?_
      rintro original original' e e' ⟨⟨horiginal, horiginal'⟩, rfl, rfl⟩
      have hcontent := halike.content (.file (file.target W))
      have hsame : SameWrite path (file.target W, original) (file.target W, original') := by
        rw [horiginal, horiginal']
        exact ⟨rfl, hcontent.1, hcontent.2⟩
      have hrest {t t' : AgentDisk} (ht : t.Alike (SidesOf path record record') t') :
          Program.Agree Disk.handle
            (fun prepared prepared' t t' =>
              List.Forall₂ (Prepared.Twin W path same) prepared prepared' ∧
                t.Alike (SidesOf path record record') t')
            (fun t t' => t.Alike (SidesOf path record record') t')
            ((backUp W mutationId files).bind fun prepared =>
              .ret (⟨file, file.target W, original⟩ :: prepared))
            ((backUp W mutationId files').bind fun prepared =>
              .ret (⟨file', file.target W, original'⟩ :: prepared)) t t' := by
        refine (ih ht).bind ?_
        rintro prepared prepared' t t' ⟨hprepared, ht⟩
        exact Program.agree_ret ⟨.cons ⟨hfirst, rfl, hsame⟩ hprepared, ht⟩
      cases original with
      | none =>
          cases original' with
          | none => exact hrest halike
          | some bytes' => cases hsame.exists_iff
      | some bytes =>
          cases original' with
          | none => cases hsame.exists_iff
          | some bytes' =>
              have hside : SidesOf path record record'
                  (.backup mutationId (safeBackupName file.relativePath)) (some bytes)
                  (some bytes') := trivial
              refine (agree_writeAlike halike hside).bind ?_
              exact fun _ _ t t' ht => hrest ht

/-- What is read back of a file just written is checked alike. -/
theorem verifyWritten_twin {prepared prepared' : Prepared}
    (h : prepared.Twin W path same prepared') :
    (∃ failure, verifyWritten W prepared (some prepared.file.rendered) = .error failure ∧
        verifyWritten W prepared' (some prepared'.file.rendered) = .error failure) ∨
      ∃ file file', verifyWritten W prepared (some prepared.file.rendered) = .ok file ∧
        verifyWritten W prepared' (some prepared'.file.rendered) = .ok file' := by
  by_cases hpath : prepared.file.target W = path
  · have hvalid {file : FileRecord} (hkind : file.kind = .dotenv) : file.Valid W := by
      have hdecode : String.fromUTF8? file.newContent.toUTF8 = some file.newContent := by
        unfold String.fromUTF8?
        rw [String.toUTF8_eq_toByteArray, dif_pos file.newContent.isValidUTF8]
        rfl
      refine ⟨(), ?_⟩
      rw [validateRenderedFile, hkind, FileRecord.rendered, hdecode]
    have hkind := (h.file.dotenv hpath).1
    exact .inr ⟨_, _, verifyWritten_of_valid (hvalid hkind),
      verifyWritten_of_valid (hvalid (h.file.kind ▸ hkind))⟩
  · have hsame := h.file.other hpath
    by_cases hvalid : prepared.file.Valid W
    · exact .inr ⟨_, _, verifyWritten_of_valid hvalid, verifyWritten_of_valid (hsame ▸ hvalid)⟩
    · obtain ⟨failure, hfailure⟩ := verifyWritten_of_not_valid hvalid
      refine .inl ⟨failure, hfailure, ?_⟩
      rw [← hfailure, verifyWritten, verifyWritten, ← hsame]

/-- What the writing loop makes of two lists. -/
def Outcomes (path : Path) (result result' :
    List (Path × Option ByteArray) × Except ConfigFailure (List FileRecord)) : Prop :=
  List.Forall₂ (SameWrite path) result.1 result'.1 ∧
    ((∃ failure, result.2 = .error failure ∧ result'.2 = .error failure) ∨
      ∃ files files', result.2 = .ok files ∧ result'.2 = .ok files')

/-- The targets are written, or the loop stops, on both sides. -/
theorem agree_writeTargets {prepared prepared' : List Prepared}
    {done done' : List (Path × Option ByteArray)}
    (halike : d.Alike (SidesOf path record record') d')
    (hprepared : List.Forall₂ (Prepared.Twin W path same) prepared prepared')
    (hdone : List.Forall₂ (SameWrite path) done done') :
    Program.Agree Disk.handle
      (fun result result' t t' => Outcomes path result result' ∧
        t.Alike (SidesOf path record record') t')
      (fun t t' => t.Alike (SidesOf path record record') t')
      (writeTargets W prepared done) (writeTargets W prepared' done') d d' := by
  induction hprepared generalizing d d' done done' with
  | nil => exact Program.agree_ret ⟨⟨hdone, .inr ⟨[], [], rfl, rfl⟩⟩, halike⟩
  | @cons first first' rest rest' hfirst _ ih =>
      obtain htarget : first.target = first'.target := hfirst.undo.target
      rw [writeTargets, writeTargets, ← htarget]
      refine Disk.agree_write halike.faults ?_ fun error =>
        Program.agree_ret ⟨⟨hdone, .inl ⟨.os error, rfl, rfl⟩⟩, halike.passed .target⟩
      have hside : SidesOf path record record' (.file first.target) (some first.file.rendered)
          (some first'.file.rendered) := by
        refine ⟨rfl, fun hne => ?_⟩
        rw [hfirst.file.other (hfirst.target ▸ hne)]
      have hput := (halike.passed .target).put hside
      refine (agree_readFile first.target).bind ?_
      rintro live live' e e' ⟨⟨hlive, hlive'⟩, rfl, rfl⟩
      have hnow : live = some first.file.rendered := hlive.trans Disk.put_content_self
      have hnow' : live' = some first'.file.rendered := hlive'.trans Disk.put_content_self
      have hundo : SameWrite path (first.target, first.original) (first.target, first'.original) :=
        ⟨rfl, hfirst.undo.exists_iff, hfirst.undo.other⟩
      have hdone₁ := List.rel_append hdone (.cons hundo .nil)
      rw [hnow, hnow']
      rcases verifyWritten_twin hfirst with
        ⟨failure, hverify, hverify'⟩ | ⟨file, file', hverify, hverify'⟩
      · rw [hverify, hverify']
        exact Program.agree_ret ⟨⟨hdone₁, .inl ⟨failure, rfl, rfl⟩⟩, hput⟩
      · rw [hverify, hverify']
        refine (ih hput hdone₁).bind ?_
        rintro ⟨written, outcome⟩ ⟨written', outcome'⟩ t t' ⟨⟨hwritten, houtcome⟩, ht⟩
        refine Program.agree_ret ⟨⟨hwritten, ?_⟩, ht⟩
        rcases houtcome with ⟨failure, heq, heq'⟩ | ⟨files, files', heq, heq'⟩
        · exact .inl ⟨failure, congrArg (Except.map _) heq, congrArg (Except.map _) heq'⟩
        · exact .inr ⟨_, _, congrArg (Except.map _) heq, congrArg (Except.map _) heq'⟩

/-- The files of the record are as they were planned. -/
theorem onDisk_applyMutation_of_unchanged (now : String)
    (hrecord : recordAt d mutationId = some record)
    (hstatus : record.status = .planned)
    (hunchanged : AsExpected W (fun file => file.beforeHash) d record.files) :
    onDisk (applyMutation W mutationId now) d = onDisk ((backUp W mutationId record.files).bind
      fun prepared => (writeTargets W prepared []).bind fun result =>
        match result.2 with
        | .error failure => (restoreAll .restore result.1).bind fun _ => .raise (surfaced failure)
        | .ok files =>
            (saveRecord .record { record with
              status := .applied, files := files, appliedAt := some now }).bind fun _ =>
              .ret { record with
                status := .applied, files := files, appliedAt := some now }) d := by
  rw [applyMutation, Program.bind_eq, onDisk_bind_of_ok (onDisk_loadRecord hrecord),
    if_neg (by rw [hstatus]; decide), Program.bind_eq]
  rcases onDisk_checkUnchangedSincePlan (W := W) (d := d) record.files with
    ⟨-, hrun⟩ | ⟨hcheck, -⟩
  · rw [onDisk_bind_of_ok hrun]
    rfl
  · exact (hcheck hunchanged).elim

/-- Applying the records of two versions returns on both sides, or raises the same exception on
both and leaves the records as they are. -/
theorem agree_applyMutation (now : String) (halike : d.Alike (SidesOf path record record') d')
    (hid : record.mutationId = mutationId)
    (hstatus : record.status = .planned) (hstatus' : record'.status = .planned)
    (hfiles : List.Forall₂ (FileRecord.Twin W path same) record.files record'.files)
    (hunchanged : AsExpected W (fun file => file.beforeHash) d record.files)
    (hunchanged' : AsExpected W (fun file => file.beforeHash) d' record'.files) :
    Program.Agree Disk.handle (fun _ _ _ _ => True)
      (fun t t' => t.Alike (SidesOf path record record') t')
      (applyMutation W mutationId now) (applyMutation W mutationId now) d d' := by
  obtain ⟨hrecord, hrecord'⟩ := halike.content (.record mutationId) hid.symm
  have hrun := onDisk_applyMutation_of_unchanged now hrecord hstatus hunchanged
  have hrun' := onDisk_applyMutation_of_unchanged now hrecord' hstatus' hunchanged'
  unfold Program.Agree
  change (∃ error t t', onDisk _ d = _ ∧ onDisk _ d' = _ ∧ _) ∨
    ∃ value value' t t', onDisk _ d = _ ∧ onDisk _ d' = _ ∧ _
  rw [hrun, hrun']
  refine (agree_backUp halike hfiles).bind ?_
  rintro prepared prepared' e e' ⟨hprepared, he⟩
  refine (agree_writeTargets he hprepared .nil).bind ?_
  rintro ⟨written, outcome⟩ ⟨written', outcome'⟩ t t' ⟨⟨hwritten, houtcome⟩, ht⟩
  rcases houtcome with ⟨failure, rfl, rfl⟩ | ⟨files, files', rfl, rfl⟩
  · exact (agree_restoreAll ht hwritten).bind fun _ _ _ _ h => Program.agree_raise h
  · exact (agree_saveRecord ht.faults (ht.passed .record)).bind fun _ _ _ _ _ =>
      Program.agree_ret trivial

/-- Applying a planned record whose files are unchanged returns where everything goes through, and
raises otherwise. -/
theorem applyMutation_planned (now : String) (hrecord : recordAt d mutationId = some record)
    (hstatus : record.status = .planned)
    (hunchanged : AsExpected W (fun file => file.beforeHash) d record.files) :
    ((Reaches W d record.files ∧ d.faults .record 0 = none) ∧ ∃ d',
        onDisk (applyMutation W mutationId now) d = (.ok (record.applied W now), d')) ∨
      (¬ (Reaches W d record.files ∧ d.faults .record 0 = none) ∧ ∃ failure d',
        onDisk (applyMutation W mutationId now) d = (.error failure, d')) := by
  rw [onDisk_applyMutation_of_unchanged now hrecord hstatus hunchanged]
  have hfaults := fun site => faults_backUp (W := W) (d := d) mutationId record.files site
  rcases onDisk_backUp (d := d) mutationId fun file hfile => (hunchanged file hfile).1 with
    ⟨hclear, d₁, hrun₁, -⟩ | ⟨hclear, failure, d₁, hrun₁⟩
  case inr => exact .inr ⟨fun h => hclear h.1.backups, failure, d₁, onDisk_bind_of_error hrun₁⟩
  rw [hrun₁] at hfaults
  rw [onDisk_bind_of_ok hrun₁]
  have hreaches : Reaches W d record.files ↔
      Clear d₁ .target (record.files.map (prepare W d)).length ∧
        ∀ entry ∈ record.files.map (prepare W d), entry.file.Valid W := by
    rw [List.length_map, Clear, hfaults .target (by decide), List.forall_mem_map]
    exact ⟨fun h => ⟨h.targets, h.valid⟩, fun h => ⟨hunchanged, hclear, h.1, h.2⟩⟩
  have hfaults' :
      (onDisk (writeTargets W (record.files.map (prepare W d)) []) d₁).2.faults .record =
        d₁.faults .record := Disk.run_faults_of_uses (uses_writeTargets _ _) (by decide)
  rcases onDisk_writeTargets (W := W) (d := d₁) (record.files.map (prepare W d)) [] with
    ⟨hall, d₂, hrun₂, -⟩ | ⟨hnot, begun, rest, failure, d₂, -, hrun₂, -⟩
  · rw [hrun₂] at hfaults'
    have hsave : d₂.faults .record 0 = d.faults .record 0 := by
      rw [hfaults', hfaults .record (by decide)]
    have hfiles : (record.files.map (prepare W d)).map (fun entry => entry.file.hashed W) =
        record.files.map (FileRecord.hashed W) := by
      rw [List.map_map]
      rfl
    rw [onDisk_bind_of_ok hrun₂, hfiles]
    change (_ ∧ ∃ d', _) ∨ (_ ∧ ∃ failure d', _)
    cases hfault : d.faults .record 0 with
    | some error => exact .inr ⟨fun h => absurd h.2 (by simp), .os error, d₂.passed .record,
        onDisk_bind_of_error (onDisk_atomicWrite_of_some (hsave.trans hfault))⟩
    | none => exact .inl ⟨⟨hreaches.mpr hall, rfl⟩, _,
        onDisk_bind_of_ok (onDisk_atomicWrite_of_none (hsave.trans hfault))⟩
  · refine .inr ⟨fun h => hnot (hreaches.mp h.1), ?_⟩
    rw [onDisk_bind_of_ok hrun₂]
    rcases hrestore : onDisk (restoreAll .restore ([] ++ begun.map Prepared.undo)) d₂ with
      ⟨result | result, d₃⟩
    · exact ⟨result, d₃, onDisk_bind_of_error hrestore⟩
    · exact ⟨surfaced failure, d₃, onDisk_bind_of_ok hrestore⟩

end Apply

/-! ## What is printed of two versions -/

/-- A plan is printed without contents. -/
theorem planToJson_twin {plan : ConfigPlan} {files' : List PlannedFile}
    (hfiles : List.Forall₂ (PlannedFile.Twin W path same) plan.files files') :
    planToJson plan = planToJson { plan with files := files' } := by
  rw [planToJson, map_eq_of_forall₂ hfiles fun file file' h => ?_]
  · rfl
  · have hpath : file.relativePath = file'.relativePath := h.1.relativePath
    have hkind : file.kind = file'.kind := h.1.kind
    have haction : file.action = file'.action := h.1.action
    rw [hpath, hkind, haction, h.2]

/-- The status is printed without contents. -/
theorem statusJson_twin {files' : List FileRecord}
    (hfiles : List.Forall₂ (FileRecord.Twin W path same) record.files files') :
    statusJson record = statusJson { record with files := files' } := by
  rw [statusJson, map_eq_of_forall₂ hfiles fun file file' h => ?_]
  · rfl
  · rw [h.relativePath, h.kind, h.action]

end Agent
