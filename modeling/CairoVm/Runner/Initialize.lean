import CairoVm.Runner.State

/-!
# Initialization

`Initialize` and the steps it calls, in cairo_runner.go's order: `initializeBuiltins` picks the
layout's runners the program names (in proof mode also the others, not included),
`initializeSegments` hands out the program, execution and builtin segments,
`initializeMainEntrypoint` loads the program and the initial stack and sets the registers
(through `initializeFunctionEntrypoint` outside proof mode), and `initializeVM` installs the
builtins' validation rules and validates what was loaded.

The results are the layouts the two modes produce on a fresh runner, for every program,
layout and builtin implementation: `initializeRunner` fails exactly when the program names a
builtin the layout lacks; otherwise the segments, the loaded cells, the registers, the end
pointer and, in proof mode, the public memory are as the spec lays them out (§4.6, steps 1-4).
Loading cannot fail, since every cell written is fresh and no rule is installed yet, and
validation finds nothing to check, since the rules sit on the builtins' segments and the
loaded cells on the program's and the execution's.

On a layout whose runners have distinct names, the loop of `initializeBuiltins` selects what
`selectedRunners` describes: the layout's runners in its order, those the program names (all
of them in proof mode), each included exactly when named (`selectBuiltins_fst`). When the
program's builtins are distinct and in the layout's order, the main stack holds their bases in
the program's order (`initializeBuiltins_selects`).
-/

namespace CairoVm

namespace CairoRunner

/-! ## The steps of `Initialize` -/

/-- The loop of `initializeBuiltins` over the layout's runners: the runners it selects, and
the program's builtins it has not found. A builtin found is deleted from the program's set;
a layout builtin the program does not name is kept, not included, in proof mode only. -/
def selectBuiltins (proofMode : Bool) :
    List String → List BuiltinRunner → List BuiltinRunner × List String
  | programBuiltins, [] => ([], programBuiltins)
  | programBuiltins, b :: bs =>
    if b.name ∈ programBuiltins then
      let rest := selectBuiltins proofMode (programBuiltins.filter (· ≠ b.name)) bs
      (b.setInclude true :: rest.1, rest.2)
    else if proofMode then
      let rest := selectBuiltins proofMode programBuiltins bs
      (b.setInclude false :: rest.1, rest.2)
    else selectBuiltins proofMode programBuiltins bs

/-- `initializeBuiltins`. The layout's own list shares the runners `Include` changes, but
nothing reads it again. -/
def initializeBuiltins (r : CairoRunner) : Except VmError CairoRunner :=
  let selected := selectBuiltins r.proofMode r.program.builtins r.layout.builtins
  if selected.2 ≠ [] then .error (.builtinsNotPresent selected.2 r.layout.name)
  else .ok { r with vm := { r.vm with builtinRunners := selected.1 } }

/-- The loop of `initializeSegments` over the builtin runners. -/
def initializeBuiltinSegments :
    List BuiltinRunner → MemorySegmentManager → List BuiltinRunner × MemorySegmentManager
  | [], s => ([], s)
  | b :: bs, s =>
    let first := b.initializeSegments s
    let rest := initializeBuiltinSegments bs first.2
    (first.1 :: rest.1, rest.2)

/-- `initializeSegments`: the program segment, the execution segment, then one segment per
builtin runner. -/
def initializeSegments (r : CairoRunner) : CairoRunner :=
  let (programBase, segments) := r.vm.segments.addSegment
  let (executionBase, segments) := segments.addSegment
  let builtins := initializeBuiltinSegments r.vm.builtinRunners segments
  { r with programBase, executionBase,
           vm := { r.vm with segments := builtins.2, builtinRunners := builtins.1 } }

/-- The loop of `initializeState` marking the program's cells accessed, `n` of them from
`base` on. -/
def markAccessed (m : Memory) (base : Relocatable) : Nat → Memory
  | 0 => m
  | n + 1 => (markAccessed m base n).markAsAccessed ⟨base.segmentIndex, base.offset + n⟩

/-- `initializeState`: the program at the program base, then, if that worked, the stack at
the execution base; the program's cells are marked accessed either way. -/
def initializeState (r : CairoRunner) (entrypoint : Nat) (stack : List MaybeRelocatable) :
    Option VmError × CairoRunner :=
  let initialPc : Relocatable := ⟨r.programBase.segmentIndex, r.programBase.offset + entrypoint⟩
  let program := r.vm.segments.loadData r.programBase r.program.data
  let loaded : Option VmError × MemorySegmentManager :=
    match program.1.2 with
    | none =>
      let stackLoaded := program.2.loadData r.executionBase stack
      (stackLoaded.1.2, stackLoaded.2)
    | some e => (some e, program.2)
  let memory := markAccessed loaded.2.memory r.programBase r.program.data.length
  (loaded.1, { r with initialPc, vm := { r.vm with segments := { loaded.2 with memory } } })

/-- `initializeFunctionEntrypoint`: a new segment for the end pointer, `[return_fp, end]` on
the stack, `fp = ap` just past it, and `end` as the final pc. -/
def initializeFunctionEntrypoint (r : CairoRunner) (entrypoint : Nat)
    (stack : List MaybeRelocatable) (returnFp : Relocatable) :
    (Relocatable × Option VmError) × CairoRunner :=
  let (end_, segments) := r.vm.segments.addSegment
  let stack := stack ++ [.relocatable returnFp, .relocatable end_]
  let initialFp : Relocatable :=
    ⟨r.executionBase.segmentIndex, r.executionBase.offset + stack.length⟩
  let r := { r with vm := { r.vm with segments }, initialFp, initialAp := initialFp,
                    finalPc := some end_ }
  let state := r.initializeState entrypoint stack
  ((end_, state.1), state.2)

/-- The stack the builtins' initial stacks make, in the runners' order. -/
def mainStack : List BuiltinRunner → List MaybeRelocatable
  | [] => []
  | b :: bs => b.initialStack ++ mainStack bs

/-- `initializeMainEntrypoint`. In proof mode the stack gets the prefix
`[execution_base + 2, 0]`, the public memory records its cells, and the error of
`initializeState` is dropped; otherwise a new segment is the return fp. -/
def initializeMainEntrypoint (r : CairoRunner) : (Relocatable × Option VmError) × CairoRunner :=
  let stack := mainStack r.vm.builtinRunners
  if r.proofMode then
    let basePlusTwo : Relocatable := ⟨r.executionBase.segmentIndex, r.executionBase.offset + 2⟩
    let stackPrefix := [.relocatable basePlusTwo, .felt (Felt.ofNat 0)] ++ stack
    let r := { r with executionPublicMemory := some (List.range stackPrefix.length) }
    let r := (r.initializeState r.program.start stackPrefix).2
    let r := { r with initialFp := basePlusTwo, initialAp := basePlusTwo }
    ((⟨r.programBase.segmentIndex, r.programBase.offset + r.program.end_⟩, none), r)
  else
    let (returnFp, segments) := r.vm.segments.addSegment
    { r with vm := { r.vm with segments } }.initializeFunctionEntrypoint r.mainOffset stack returnFp

/-- `initializeVM`: the registers, every runner's validation rule, and the validation of the
memory loaded so far. -/
def initializeVM (B : BuiltinImpl) (r : CairoRunner) : Option VmError × CairoRunner :=
  let memory := r.vm.builtinRunners.foldl (fun m b => b.addValidationRule B m) r.vm.segments.memory
  let validated := memory.validateExistingMemory
  (validated.1, { r with vm := { r.vm with runContext := ⟨r.initialPc, r.initialAp, r.initialFp⟩,
                                             segments := { r.vm.segments with memory := validated.2 } } })

/-- `Initialize` (a keyword in Lean, hence the name): the end pointer and the error. -/
def initializeRunner (B : BuiltinImpl) (r : CairoRunner) : (Relocatable × Option VmError) × CairoRunner :=
  match r.initializeBuiltins with
  | .error e => ((⟨0, 0⟩, some e), r)
  | .ok r =>
    let main := r.initializeSegments.initializeMainEntrypoint
    match main.1.2 with
    | none =>
      let vm := main.2.initializeVM B
      ((main.1.1, vm.1), vm.2)
    | some e => ((main.1.1, some e), main.2)

/-! ## Selecting the builtins -/

/-- The program builtins the loop leaves over are those no layout runner is named after. -/
theorem selectBuiltins_snd (proofMode : Bool) (pb : List String) (ls : List BuiltinRunner) :
    (selectBuiltins proofMode pb ls).2 =
      pb.filter (fun b => decide (∀ l ∈ ls, l.name ≠ b)) := by
  induction ls generalizing pb with
  | nil => exact (List.filter_eq_self.mpr fun _ _ => by simp).symm
  | cons l ls ih =>
    by_cases hmem : l.name ∈ pb
    · simp only [selectBuiltins, if_pos hmem, ih, List.filter_filter]
      refine List.filter_congr fun b _ => ?_
      rw [Bool.and_comm, ← Bool.decide_and, decide_eq_decide, List.forall_mem_cons]
      exact and_congr_left' ne_comm
    · have hsnd : (selectBuiltins proofMode pb (l :: ls)).2 = (selectBuiltins proofMode pb ls).2 := by
        rw [selectBuiltins.eq_2, if_neg hmem]; cases proofMode <;> rfl
      rw [hsnd, ih]
      refine List.filter_congr fun b hb => ?_
      have : l.name ≠ b := fun h => hmem (h ▸ hb)
      simp [this]

theorem selectBuiltins_snd_ne_nil_iff {proofMode : Bool} {pb : List String}
    {ls : List BuiltinRunner} :
    (selectBuiltins proofMode pb ls).2 ≠ [] ↔ ∃ b ∈ pb, ∀ l ∈ ls, l.name ≠ b := by
  rw [selectBuiltins_snd, Ne, List.filter_eq_nil_iff]
  simp

/-- Outside proof mode every runner selected is included. -/
theorem selectBuiltins_included (pb : List String) (ls : List BuiltinRunner) :
    ∀ b ∈ (selectBuiltins false pb ls).1, b.included = true := by
  induction ls generalizing pb with
  | nil => simp [selectBuiltins]
  | cons l ls ih =>
    by_cases hmem : l.name ∈ pb
    · simp only [selectBuiltins, if_pos hmem, List.mem_cons, forall_eq_or_imp]
      exact ⟨rfl, ih _⟩
    · simpa [selectBuiltins, hmem] using ih pb

/-- The runners a selection should give: the layout's, in its order, those the program names
(all of them in proof mode), each included exactly when the program names it. -/
def selectedRunners (proofMode : Bool) (pb : List String) (ls : List BuiltinRunner) :
    List BuiltinRunner :=
  (if proofMode then ls else ls.filter (fun l => decide (l.name ∈ pb))).map
    fun l => l.setInclude (decide (l.name ∈ pb))

theorem selectedRunners_congr {proofMode : Bool} {pb pb' : List String}
    {ls : List BuiltinRunner} (h : ∀ l ∈ ls, l.name ∈ pb ↔ l.name ∈ pb') :
    selectedRunners proofMode pb ls = selectedRunners proofMode pb' ls := by
  have hd : ∀ l ∈ ls, decide (l.name ∈ pb) = decide (l.name ∈ pb') :=
    fun l hl => decide_eq_decide.mpr (h l hl)
  unfold selectedRunners
  cases proofMode
  · simp only [Bool.false_eq_true, if_false]
    rw [List.filter_congr hd]
    exact List.map_congr_left fun l hl => by rw [hd l (List.mem_filter.mp hl).1]
  · exact List.map_congr_left fun l hl => by rw [hd l hl]

/-- When the layout's runners have distinct names, the loop selects what `selectedRunners`
says: deleting a name found leaves the later runners' membership as it was. -/
theorem selectBuiltins_fst (proofMode : Bool) (pb : List String) (ls : List BuiltinRunner)
    (hnames : (ls.map (·.name)).Nodup) :
    (selectBuiltins proofMode pb ls).1 = selectedRunners proofMode pb ls := by
  induction ls generalizing pb with
  | nil => cases proofMode <;> rfl
  | cons l ls ih =>
    rw [List.map_cons, List.nodup_cons, List.mem_map] at hnames
    by_cases hmem : l.name ∈ pb
    · have hpb : ∀ l' ∈ ls, l'.name ∈ pb.filter (· ≠ l.name) ↔ l'.name ∈ pb := fun l' h' => by
        have : l'.name ≠ l.name := fun he => hnames.1 ⟨l', h', he⟩
        simp [this]
      simp only [selectBuiltins, if_pos hmem]
      rw [ih _ hnames.2, selectedRunners_congr hpb]
      cases proofMode <;> simp [selectedRunners, hmem]
    · cases proofMode <;> simp [selectBuiltins, selectedRunners, hmem, ih _ hnames.2]

theorem map_name_filter_included_selectedRunners (proofMode : Bool) (pb : List String)
    (ls : List BuiltinRunner) :
    ((selectedRunners proofMode pb ls).filter (·.included)).map (·.name) =
      (ls.map (·.name)).filter (· ∈ pb) := by
  rw [List.filter_map]
  cases proofMode <;> simp [selectedRunners, List.filter_map, Function.comp_def,
    BuiltinRunner.setInclude, List.filter_filter]

/-- Filtering a list of distinct names on membership in a sublist of it gives the sublist
back, in its order. -/
theorem filter_mem_of_sublist {N B : List String} (hN : N.Nodup) (hB : B.Sublist N) :
    N.filter (fun x => decide (x ∈ B)) = B := by
  induction hB with
  | slnil => rfl
  | cons a h ih =>
    have ha : a ∉ _ := fun hm => (List.nodup_cons.mp hN).1 (h.subset hm)
    rw [List.filter_cons_of_neg (by simpa using ha), ih (List.nodup_cons.mp hN).2]
  | cons₂ a h ih =>
    obtain ⟨ha, hN⟩ := List.nodup_cons.mp hN
    rw [List.filter_cons_of_pos (by simp)]
    refine congrArg (a :: ·) ((List.filter_congr fun x hx => ?_).trans (ih hN))
    have : x ≠ a := fun hxa => ha (hxa ▸ hx)
    simp [this]

theorem initializeBuiltins_of_missing {r : CairoRunner}
    (h : (selectBuiltins r.proofMode r.program.builtins r.layout.builtins).2 ≠ []) :
    r.initializeBuiltins = .error (.builtinsNotPresent
      (selectBuiltins r.proofMode r.program.builtins r.layout.builtins).2 r.layout.name) := by
  simp [initializeBuiltins, h]

theorem initializeBuiltins_of_found {r : CairoRunner}
    (h : (selectBuiltins r.proofMode r.program.builtins r.layout.builtins).2 = []) :
    r.initializeBuiltins = .ok { r with vm := { r.vm with builtinRunners :=
      (selectBuiltins r.proofMode r.program.builtins r.layout.builtins).1 } } := by
  simp [initializeBuiltins, h]

theorem selectBuiltins_snd_of_ok {r r₁ : CairoRunner} (h : r.initializeBuiltins = .ok r₁) :
    (selectBuiltins r.proofMode r.program.builtins r.layout.builtins).2 = [] := by
  by_contra hne
  rw [initializeBuiltins_of_missing hne] at h
  cases h

theorem selectBuiltins_snd_of_error {r : CairoRunner} {e : VmError}
    (h : r.initializeBuiltins = .error e) :
    (selectBuiltins r.proofMode r.program.builtins r.layout.builtins).2 ≠ [] := fun hnil => by
  rw [initializeBuiltins_of_found hnil] at h
  cases h

/-! ## Allocating the segments -/

theorem initializeBuiltinSegments_snd (rs : List BuiltinRunner) (s : MemorySegmentManager) :
    (initializeBuiltinSegments rs s).2 =
      { s with memory := { s.memory with numSegments := s.memory.numSegments + rs.length } } := by
  induction rs generalizing s with
  | nil => rfl
  | cons b bs ih =>
    simp only [initializeBuiltinSegments, ih, BuiltinRunner.initializeSegments,
      MemorySegmentManager.addSegment, List.length_cons, Nat.add_assoc, Nat.add_comm 1]

/-- The `i`-th runner gets the `i`-th new segment. -/
theorem getElem?_initializeBuiltinSegments (rs : List BuiltinRunner) (s : MemorySegmentManager)
    (i : Nat) :
    (initializeBuiltinSegments rs s).1[i]? =
      rs[i]?.map fun b => { b with base := ⟨(s.memory.numSegments + i : Nat), 0⟩ } := by
  induction rs generalizing s i with
  | nil => rfl
  | cons b bs ih =>
    cases i with
    | zero => simp [initializeBuiltinSegments, BuiltinRunner.initializeSegments]
    | succ i =>
      simp only [initializeBuiltinSegments, List.getElem?_cons_succ, ih,
        BuiltinRunner.initializeSegments, MemorySegmentManager.addSegment_numSegments,
        Nat.add_assoc, Nat.add_comm 1]

theorem map_base_initializeBuiltinSegments (rs : List BuiltinRunner) (s : MemorySegmentManager) :
    (initializeBuiltinSegments rs s).1.map (·.base) =
      (List.range rs.length).map fun i => ⟨(s.memory.numSegments + i : Nat), 0⟩ := by
  induction rs generalizing s with
  | nil => rfl
  | cons b bs ih =>
    simp only [initializeBuiltinSegments, List.map_cons, ih, List.length_cons,
      List.range_succ_eq_map, List.map_map, BuiltinRunner.initializeSegments,
      MemorySegmentManager.addSegment_fst, MemorySegmentManager.addSegment_numSegments]
    congr 2
    funext i
    simp only [Function.comp, Nat.add_assoc, Nat.add_comm 1 i]

theorem map_included_initializeBuiltinSegments (rs : List BuiltinRunner)
    (s : MemorySegmentManager) :
    (initializeBuiltinSegments rs s).1.map (·.included) = rs.map (·.included) := by
  induction rs generalizing s with
  | nil => rfl
  | cons b bs ih => simp [initializeBuiltinSegments, BuiltinRunner.initializeSegments, ih]

theorem length_initializeBuiltinSegments (rs : List BuiltinRunner) (s : MemorySegmentManager) :
    (initializeBuiltinSegments rs s).1.length = rs.length := by
  induction rs generalizing s with
  | nil => rfl
  | cons b bs ih => simp [initializeBuiltinSegments, ih]

theorem map_name_filter_included_initializeBuiltinSegments (rs : List BuiltinRunner)
    (s : MemorySegmentManager) :
    ((initializeBuiltinSegments rs s).1.filter (·.included)).map (·.name) =
      (rs.filter (·.included)).map (·.name) := by
  induction rs generalizing s with
  | nil => rfl
  | cons b bs ih =>
    cases h : b.included <;>
      simp [initializeBuiltinSegments, BuiltinRunner.initializeSegments, List.filter_cons, h, ih]

theorem initializeSegments_eq (r : CairoRunner) :
    r.initializeSegments = { r with
      programBase := ⟨r.vm.segments.memory.numSegments, 0⟩
      executionBase := ⟨(r.vm.segments.memory.numSegments + 1 : Nat), 0⟩
      vm := { r.vm with
        segments := { r.vm.segments with memory := { r.vm.segments.memory with
          numSegments := r.vm.segments.memory.numSegments + 2 + r.vm.builtinRunners.length } }
        builtinRunners := (initializeBuiltinSegments r.vm.builtinRunners
          r.vm.segments.addSegment.2.addSegment.2).1 } } := by
  simp only [initializeSegments, initializeBuiltinSegments_snd, MemorySegmentManager.addSegment]

/-! ## Loading the program and the stack -/

theorem mainStack_eq (rs : List BuiltinRunner) :
    mainStack rs = (rs.filter (·.included)).map fun b => .relocatable b.base := by
  induction rs with
  | nil => rfl
  | cons b bs ih => cases h : b.included <;> simp [mainStack, BuiltinRunner.initialStack, h, ih]

theorem markAccessed_eq (m : Memory) (base : Relocatable) (n : Nat) :
    markAccessed m base n = { m with accessedAddresses :=
      ((List.range n).reverse.map (fun i => ⟨base.segmentIndex, base.offset + i⟩) ++
        m.accessedAddresses) } := by
  induction n with
  | zero => rfl
  | succ n ih => simp [markAccessed, ih, Memory.markAsAccessed, List.range_succ]

/-- On two distinct allocated segments with no cells and no rules yet, loading cannot fail:
the program and the stack land at their bases. -/
theorem initializeState_fresh {r : CairoRunner} (entrypoint : Nat)
    (stack : List MaybeRelocatable)
    (hprog : r.programBase.segmentIndex < r.vm.segments.memory.numSegments)
    (hexec : r.executionBase.segmentIndex < r.vm.segments.memory.numSegments)
    (hne : r.executionBase.segmentIndex ≠ r.programBase.segmentIndex)
    (hdata : r.vm.segments.memory.data = []) (hrules : r.vm.segments.memory.validationRules = []) :
    r.initializeState entrypoint stack =
      (none, { r with
        initialPc := ⟨r.programBase.segmentIndex, r.programBase.offset + entrypoint⟩
        vm := { r.vm with segments := { r.vm.segments with memory := (markAccessed
          { r.vm.segments.memory with
            data := MemorySegmentManager.loadedCells r.executionBase stack ++
              MemorySegmentManager.loadedCells r.programBase r.program.data }
          r.programBase r.program.data.length) } } }) := by
  have hload := @MemorySegmentManager.loadData_fresh r.programBase r.program.data _
    hprog (by simp [hrules]) (by simp [hdata])
  simp only [initializeState, hload]
  rw [MemorySegmentManager.loadData_fresh]
  · simp [hdata]
  · simpa using hexec
  · simp [hrules]
  · intro j _
    simp only [hdata, List.append_nil]
    exact MemorySegmentManager.lookup_loadedCells_of_segment_ne hne

/-! ## The entry points -/

section
variable {r : CairoRunner}
  (hprog : r.programBase.segmentIndex < r.vm.segments.memory.numSegments)
  (hexec : r.executionBase.segmentIndex < r.vm.segments.memory.numSegments)
  (hne : r.executionBase.segmentIndex ≠ r.programBase.segmentIndex)
  (hdata : r.vm.segments.memory.data = []) (hrules : r.vm.segments.memory.validationRules = [])
include hprog hexec hne hdata hrules

/-- Outside proof mode: two new segments, the return fp and the end pointer, close the stack,
`fp = ap` lies just past it, and the end pointer is the final pc. -/
theorem initializeMainEntrypoint_of_normal (hpm : r.proofMode = false) :
    r.initializeMainEntrypoint =
      ((⟨(r.vm.segments.memory.numSegments + 1 : Nat), 0⟩, none), { r with
        initialPc := ⟨r.programBase.segmentIndex, r.programBase.offset + r.mainOffset⟩
        initialFp := ⟨r.executionBase.segmentIndex,
          r.executionBase.offset + ((mainStack r.vm.builtinRunners).length + 2)⟩
        initialAp := ⟨r.executionBase.segmentIndex,
          r.executionBase.offset + ((mainStack r.vm.builtinRunners).length + 2)⟩
        finalPc := some ⟨(r.vm.segments.memory.numSegments + 1 : Nat), 0⟩
        vm := { r.vm with segments := { r.vm.segments with memory := (markAccessed
          { r.vm.segments.memory with
            numSegments := r.vm.segments.memory.numSegments + 2
            data := MemorySegmentManager.loadedCells r.executionBase
                (mainStack r.vm.builtinRunners ++
                  [.relocatable ⟨r.vm.segments.memory.numSegments, 0⟩,
                   .relocatable ⟨(r.vm.segments.memory.numSegments + 1 : Nat), 0⟩]) ++
              MemorySegmentManager.loadedCells r.programBase r.program.data }
          r.programBase r.program.data.length) } } }) := by
  dsimp only [initializeMainEntrypoint, initializeFunctionEntrypoint,
    MemorySegmentManager.addSegment]
  rw [if_neg (by simp [hpm]), initializeState_fresh]
  · simp
  all_goals simp_all <;> omega

/-- In proof mode: the stack starts with `[execution_base + 2, 0]`, the public memory lists
every stack cell, `fp = ap = execution_base + 2`, the final pc is left unset, and the end
pointer is `program_base + End`. The error of `initializeState`, which this path drops, is
`none` by `initializeState_fresh`. -/
theorem initializeMainEntrypoint_of_proof (hpm : r.proofMode = true) :
    r.initializeMainEntrypoint =
      ((⟨r.programBase.segmentIndex, r.programBase.offset + r.program.end_⟩, none), { r with
        executionPublicMemory := some (List.range ((mainStack r.vm.builtinRunners).length + 2))
        initialPc := ⟨r.programBase.segmentIndex, r.programBase.offset + r.program.start⟩
        initialFp := ⟨r.executionBase.segmentIndex, r.executionBase.offset + 2⟩
        initialAp := ⟨r.executionBase.segmentIndex, r.executionBase.offset + 2⟩
        vm := { r.vm with segments := { r.vm.segments with memory := (markAccessed
          { r.vm.segments.memory with
            data := MemorySegmentManager.loadedCells r.executionBase
                ([.relocatable ⟨r.executionBase.segmentIndex, r.executionBase.offset + 2⟩,
                  .felt (Felt.ofNat 0)] ++ mainStack r.vm.builtinRunners) ++
              MemorySegmentManager.loadedCells r.programBase r.program.data }
          r.programBase r.program.data.length) } } }) := by
  dsimp only [initializeMainEntrypoint]
  rw [if_pos hpm, initializeState_fresh]
  · simp [Nat.add_comm 2]
  all_goals simp_all

end

/-! ## Validating what was loaded -/

section
variable {B : BuiltinImpl}

/-- Installing the rules changes the rules only. -/
theorem foldl_addValidationRule_eq (rs : List BuiltinRunner) (m : Memory) :
    ∃ rules, rs.foldl (fun m b => b.addValidationRule B m) m = { m with validationRules := rules } := by
  induction rs generalizing m with
  | nil => exact ⟨m.validationRules, rfl⟩
  | cons b bs ih =>
    rw [List.foldl_cons]
    obtain ⟨rules, h⟩ := ih (b.addValidationRule B m)
    refine ⟨rules, h.trans ?_⟩
    unfold BuiltinRunner.addValidationRule; split <;> rfl

@[simp] theorem foldl_addValidationRule_data (rs : List BuiltinRunner) (m : Memory) :
    (rs.foldl (fun m b => b.addValidationRule B m) m).data = m.data := by
  obtain ⟨_, h⟩ := foldl_addValidationRule_eq (B := B) rs m; rw [h]

@[simp] theorem foldl_addValidationRule_accessedAddresses (rs : List BuiltinRunner) (m : Memory) :
    (rs.foldl (fun m b => b.addValidationRule B m) m).accessedAddresses = m.accessedAddresses := by
  obtain ⟨_, h⟩ := foldl_addValidationRule_eq (B := B) rs m; rw [h]

theorem lookup_foldl_addValidationRule (rs : List BuiltinRunner) (m : Memory) (n : Nat)
    (hm : m.validationRules.lookup n = none) (hrs : ∀ b ∈ rs, b.base.segmentIndex.toNat ≠ n) :
    (rs.foldl (fun m b => b.addValidationRule B m) m).validationRules.lookup n = none := by
  induction rs generalizing m with
  | nil => exact hm
  | cons b bs ih =>
    rw [List.foldl_cons]
    refine ih _ ?_ fun b' hb' => hrs b' (List.mem_cons_of_mem _ hb')
    unfold BuiltinRunner.addValidationRule; split
    · have hne := hrs b (List.mem_cons_self _ _)
      simp [Memory.addValidationRule, List.lookup_cons, beq_false_of_ne (Ne.symm hne), hm]
    · exact hm

/-- With each rule on a segment that holds no cell, validation checks nothing and passes. -/
theorem initializeVM_of_apart {r : CairoRunner}
    (hrules : r.vm.segments.memory.validationRules = [])
    (hapart : ∀ c ∈ r.vm.segments.memory.data, ∀ b ∈ r.vm.builtinRunners,
      b.base.segmentIndex.toNat ≠ c.1.segmentIndex.toNat) :
    r.initializeVM B = (none, { r with vm := { r.vm with
      runContext := ⟨r.initialPc, r.initialAp, r.initialFp⟩
      segments := { r.vm.segments with memory :=
        (r.vm.builtinRunners.foldl (fun m b => b.addValidationRule B m) r.vm.segments.memory) } } })
    := by
  have hvalid := @Memory.validateAddresses_of_noRule
    (r.vm.builtinRunners.foldl (fun m b => b.addValidationRule B m) r.vm.segments.memory)
    (r.vm.segments.memory.data.map Prod.fst) (by
      simp only [List.mem_map]
      rintro _ ⟨c, hc, rfl⟩
      exact lookup_foldl_addValidationRule _ _ _ (by simp [hrules]) (hapart c hc))
  simp only [initializeVM, Memory.validateExistingMemory, foldl_addValidationRule_data, hvalid]

end

/-! ## A fresh runner -/

/-- The cells a fresh runner loads, read back: the stack on the execution segment `1`, the
program on the program segment `0`. -/
theorem lookup_fresh_cells (S D : List MaybeRelocatable) (j : Nat) :
    (MemorySegmentManager.loadedCells ⟨1, 0⟩ S ++
      MemorySegmentManager.loadedCells ⟨0, 0⟩ D).lookup ⟨1, j⟩ = S[j]? ∧
    (MemorySegmentManager.loadedCells ⟨1, 0⟩ S ++
      MemorySegmentManager.loadedCells ⟨0, 0⟩ D).lookup ⟨0, j⟩ = D[j]? := by
  simpa using MemorySegmentManager.lookup_loadedCells_append (e := ⟨1, 0⟩) (p := ⟨0, 0⟩)
    (S := S) (D := D) (by decide) j

/-- A fresh runner whose builtins were found, once its segments are handed out: the program
at `(0, 0)`, the execution at `(1, 0)`, the `i`-th selected runner at `(2 + i, 0)`, and no
cell and no rule yet. -/
theorem initializeSegments_fresh {program : Program} {layout : CairoLayout} {proofMode : Bool}
    {r₁ : CairoRunner}
    (h : (CairoRunner.new program layout proofMode).initializeBuiltins = .ok r₁) :
    r₁.initializeSegments.programBase = ⟨0, 0⟩ ∧ r₁.initializeSegments.executionBase = ⟨1, 0⟩ ∧
    r₁.initializeSegments.vm.segments.memory =
      { Memory.empty with numSegments := r₁.initializeSegments.vm.builtinRunners.length + 2 } ∧
    r₁.initializeSegments.vm.builtinRunners.map (·.base) =
      (List.range r₁.initializeSegments.vm.builtinRunners.length).map
        (fun i => ⟨(2 + i : Nat), 0⟩) ∧
    r₁.initializeSegments.vm.builtinRunners.map (·.included) =
      (selectBuiltins proofMode program.builtins layout.builtins).1.map (·.included) ∧
    r₁.initializeSegments.program = program ∧ r₁.initializeSegments.proofMode = proofMode ∧
    r₁.initializeSegments.mainOffset = (program.identifiers.lookup "__main__.main").getD 0 ∧
    r₁.initializeSegments.finalPc = none := by
  rw [initializeBuiltins_of_found (selectBuiltins_snd_of_ok h)] at h
  cases h
  rw [initializeSegments_eq]
  simp [CairoRunner.new, VirtualMachine.new, MemorySegmentManager.empty, Memory.empty,
    length_initializeBuiltinSegments, map_base_initializeBuiltinSegments,
    map_included_initializeBuiltinSegments, Nat.add_comm 2]

/-- What the entry points need of a fresh runner's segments: the program and execution
segments are allocated and distinct, and there is no cell and no rule yet. -/
theorem initializeSegments_fresh_entry {program : Program} {layout : CairoLayout}
    {proofMode : Bool} {r₁ : CairoRunner}
    (h : (CairoRunner.new program layout proofMode).initializeBuiltins = .ok r₁) :
    r₁.initializeSegments.programBase.segmentIndex <
        r₁.initializeSegments.vm.segments.memory.numSegments ∧
      r₁.initializeSegments.executionBase.segmentIndex <
        r₁.initializeSegments.vm.segments.memory.numSegments ∧
      r₁.initializeSegments.executionBase.segmentIndex ≠
        r₁.initializeSegments.programBase.segmentIndex ∧
      r₁.initializeSegments.vm.segments.memory.data = [] ∧
      r₁.initializeSegments.vm.segments.memory.validationRules = [] := by
  obtain ⟨hprog, hexec, hmem, -⟩ := initializeSegments_fresh h
  rw [hprog, hexec, hmem]
  exact ⟨by simp; omega, by simp; omega, by decide, rfl, rfl⟩

/-- The builtin segments of a fresh runner hold none of the cells loaded on the execution and
program segments. -/
theorem fresh_cells_apart {rs : List BuiltinRunner} {n : Nat}
    (hbases : rs.map (·.base) = (List.range n).map fun i => ⟨(2 + i : Nat), 0⟩)
    (S D : List MaybeRelocatable) :
    ∀ c ∈ MemorySegmentManager.loadedCells ⟨1, 0⟩ S ++ MemorySegmentManager.loadedCells ⟨0, 0⟩ D,
      ∀ b ∈ rs, b.base.segmentIndex.toNat ≠ c.1.segmentIndex.toNat := by
  intro c hc b hb
  have hb' := List.mem_map_of_mem (fun b : BuiltinRunner => b.base) hb
  rw [hbases] at hb'
  obtain ⟨i, -, hi⟩ := List.mem_map.mp hb'
  simp only at hi
  rw [← hi]
  rcases List.mem_append.mp hc with hc | hc <;>
    rw [(MemorySegmentManager.mem_loadedCells hc).1] <;> simp <;> omega

theorem initializeRunner_normal_mode (B : BuiltinImpl) (program : Program)
    (layout : CairoLayout) :
    let res := (CairoRunner.new program layout false).initializeRunner B
    let k := res.2.vm.builtinRunners.length
    let mem := res.2.vm.segments.memory
    let fp := res.2.vm.runContext.fp
    (res.1.2.isSome ↔ ∃ b ∈ program.builtins, ∀ l ∈ layout.builtins, l.name ≠ b) ∧
    (res.1.2 = none →
      res.2.programBase = ⟨0, 0⟩ ∧ res.2.executionBase = ⟨1, 0⟩ ∧
      res.2.vm.builtinRunners.map (·.base) = (List.range k).map (fun i => ⟨2 + i, 0⟩) ∧
      res.1.1 = ⟨k + 3, 0⟩ ∧ res.2.finalPc = some res.1.1 ∧
      (∀ i < program.data.length,
        mem.data.lookup ⟨0, i⟩ = program.data[i]? ∧ ⟨0, i⟩ ∈ mem.accessedAddresses) ∧
      (∀ j < k, mem.data.lookup ⟨1, j⟩ = some (.relocatable ⟨2 + j, 0⟩)) ∧
      mem.data.lookup ⟨1, k⟩ = some (.relocatable ⟨k + 2, 0⟩) ∧
      mem.data.lookup ⟨1, k + 1⟩ = some (.relocatable res.1.1) ∧
      res.2.vm.runContext.ap = ⟨1, k + 2⟩ ∧ fp = ⟨1, k + 2⟩ ∧
      res.2.vm.runContext.pc = ⟨0, (program.identifiers.lookup "__main__.main").getD 0⟩ ∧
      mem.data.lookup ⟨fp.segmentIndex, fp.offset - 2⟩ = some (.relocatable ⟨k + 2, 0⟩) ∧
      mem.data.lookup ⟨fp.segmentIndex, fp.offset - 1⟩ = some (.relocatable res.1.1)) := by
  dsimp only
  rcases hb : (CairoRunner.new program layout false).initializeBuiltins with e | r₁
  · simp only [initializeRunner, hb]
    exact ⟨by simpa using selectBuiltins_snd_ne_nil_iff.mp (selectBuiltins_snd_of_error hb),
      by simp⟩
  · have hsel := selectBuiltins_snd_of_ok hb
    obtain ⟨hprog, hexec, hmem, hbases, hincls, hprogram, hpm, hmain, hfinal⟩ :=
      initializeSegments_fresh hb
    obtain ⟨h₁, h₂, h₃, h₄, h₅⟩ := initializeSegments_fresh_entry hb
    simp only [initializeRunner, hb]
    generalize r₁.initializeSegments = r₂ at *
    have hincl : ∀ b ∈ r₂.vm.builtinRunners, b.included = true := by
      rw [← List.forall_mem_map (f := fun b : BuiltinRunner => b.included) (P := (· = true)),
        hincls, List.forall_mem_map]
      exact selectBuiltins_included _ _
    have hstack : mainStack r₂.vm.builtinRunners =
        r₂.vm.builtinRunners.map fun b => .relocatable b.base := by
      rw [mainStack_eq, List.filter_eq_self.mpr hincl]
    rw [initializeMainEntrypoint_of_normal h₁ h₂ h₃ h₄ h₅ hpm]
    dsimp only
    rw [initializeVM_of_apart]
    · simp only [hprog, hexec, hmem, hpm, hprogram, hmain, hstack, markAccessed_eq,
        foldl_addValidationRule_data, foldl_addValidationRule_accessedAddresses]
      simp only [lookup_fresh_cells]
      refine ⟨?_, fun _ => ?_⟩
      · simpa using selectBuiltins_snd_ne_nil_iff.not.mp (not_not.mpr hsel)
      have hS : (r₂.vm.builtinRunners.map (·.base)).map MaybeRelocatable.relocatable =
          r₂.vm.builtinRunners.map (fun b => .relocatable b.base) := List.map_map _ _ _
      and_intros
      · trivial
      · trivial
      · rw [hbases]; simp
      · simp only [Relocatable.mk.injEq, and_true]; omega
      · trivial
      · intro i hi; simp [hi]
      · intro j hj
        rw [← hS, hbases, List.getElem?_append_left (by simpa using hj)]
        simp [List.getElem?_range hj]
      all_goals simp [List.getElem_append_right]
    · simp [markAccessed_eq, hmem, Memory.empty]
    · simp only [markAccessed_eq, hexec, hprog]
      exact fresh_cells_apart hbases _ _

theorem initializeRunner_proof_mode (B : BuiltinImpl) (program : Program)
    (layout : CairoLayout) :
    let res := (CairoRunner.new program layout true).initializeRunner B
    let included := res.2.vm.builtinRunners.filter (·.included)
    let mem := res.2.vm.segments.memory
    (res.1.2.isSome ↔ ∃ b ∈ program.builtins, ∀ l ∈ layout.builtins, l.name ≠ b) ∧
    (res.1.2 = none →
      mem.data.lookup ⟨1, 0⟩ = some (.relocatable ⟨1, 2⟩) ∧
      mem.data.lookup ⟨1, 1⟩ = some (.felt (Felt.ofNat 0)) ∧
      (∀ j < included.length,
        mem.data.lookup ⟨1, 2 + j⟩ = included[j]?.map fun b => .relocatable b.base) ∧
      res.2.vm.runContext.ap = ⟨1, 2⟩ ∧ res.2.vm.runContext.fp = ⟨1, 2⟩ ∧
      res.2.vm.runContext.pc = ⟨0, program.start⟩ ∧
      res.1.1 = ⟨0, program.end_⟩ ∧ res.2.finalPc = none ∧
      res.2.executionPublicMemory = some (List.range (included.length + 2))) ∧
    (∀ r₁, (CairoRunner.new program layout true).initializeBuiltins = .ok r₁ →
      ∀ epm stack, ({ r₁.initializeSegments with executionPublicMemory := epm }.initializeState
        program.start stack).1 = none) := by
  dsimp only
  have hstate : ∀ r₁, (CairoRunner.new program layout true).initializeBuiltins = .ok r₁ →
      ∀ epm stack, ({ r₁.initializeSegments with executionPublicMemory := epm }.initializeState
        program.start stack).1 = none := by
    intro r₁ hb epm stack
    obtain ⟨hprog, hexec, hmem, -⟩ := initializeSegments_fresh hb
    rw [initializeState_fresh]
    all_goals simp [hprog, hexec, hmem, Memory.empty]
    all_goals omega
  refine and_assoc.mp ⟨?_, hstate⟩
  rcases hb : (CairoRunner.new program layout true).initializeBuiltins with e | r₁
  · simp only [initializeRunner, hb]
    exact ⟨by simpa using selectBuiltins_snd_ne_nil_iff.mp (selectBuiltins_snd_of_error hb),
      by simp⟩
  · have hsel := selectBuiltins_snd_of_ok hb
    obtain ⟨hprog, hexec, hmem, hbases, -, hprogram, hpm, -, hfinal⟩ := initializeSegments_fresh hb
    obtain ⟨h₁, h₂, h₃, h₄, h₅⟩ := initializeSegments_fresh_entry hb
    simp only [initializeRunner, hb]
    generalize r₁.initializeSegments = r₂ at *
    rw [initializeMainEntrypoint_of_proof h₁ h₂ h₃ h₄ h₅ hpm]
    dsimp only
    rw [initializeVM_of_apart]
    · simp only [hprog, hexec, hmem, hpm, hprogram, hfinal, mainStack_eq, markAccessed_eq,
        foldl_addValidationRule_data, lookup_fresh_cells]
      refine ⟨?_, fun _ => ?_⟩
      · simpa using selectBuiltins_snd_ne_nil_iff.not.mp (not_not.mpr hsel)
      and_intros
      · simp
      · simp
      · intro j _
        rw [show 2 + j = j + 1 + 1 by omega]
        simp
      all_goals simp
    · simp [markAccessed_eq, hmem, Memory.empty]
    · simp only [markAccessed_eq, hexec, hprog]
      exact fresh_cells_apart hbases _ _

/-! ## What `Initialize` hands over -/

/-- Outside proof mode the entry point records the end pointer it returns as the final pc. -/
theorem initializeMainEntrypoint_finalPc {r : CairoRunner} (hpm : r.proofMode = false) :
    r.initializeMainEntrypoint.2.finalPc = some r.initializeMainEntrypoint.1.1 := by
  unfold initializeMainEntrypoint
  rw [if_neg (by simp [hpm])]
  rfl

/-- In proof mode the entry point records the stack prefix as the execution public memory: its
two cells and one for each included builtin. -/
theorem initializeMainEntrypoint_executionPublicMemory {r : CairoRunner}
    (hpm : r.proofMode = true) :
    r.initializeMainEntrypoint.2.executionPublicMemory =
      some (List.range ((r.vm.builtinRunners.filter (·.included)).length + 2)) := by
  rw [← List.length_map _ fun b : BuiltinRunner => MaybeRelocatable.relocatable b.base,
    ← mainStack_eq]
  unfold initializeMainEntrypoint
  rw [if_pos hpm]
  rfl

/-- Allocating the segments keeps the number of included builtins. -/
theorem length_filter_included_initializeSegments (r : CairoRunner) :
    (r.initializeSegments.vm.builtinRunners.filter (·.included)).length =
      (r.vm.builtinRunners.filter (·.included)).length := by
  rw [← List.countP_eq_length_filter, ← List.countP_eq_length_filter]
  have := congrArg (List.countP id) (map_included_initializeBuiltinSegments
    r.vm.builtinRunners r.vm.segments.addSegment.2.addSegment.2)
  simpa [initializeSegments_eq, List.countP_map] using this

/-- What `Initialize` hands over when it returns no error. Outside proof mode the end pointer
it returns is the final pc; in proof mode the execution public memory is the stack prefix, two
cells and one for each included builtin. -/
theorem initializeRunner_handover (B : BuiltinImpl) {r : CairoRunner}
    (h : (initializeRunner B r).1.2 = none) :
    (r.proofMode = false → (initializeRunner B r).2.finalPc = some (initializeRunner B r).1.1) ∧
    (r.proofMode = true → (initializeRunner B r).2.executionPublicMemory = some (List.range
      (((selectBuiltins true r.program.builtins r.layout.builtins).1.filter (·.included)).length +
        2))) := by
  rcases hb : r.initializeBuiltins with e | r₁
  · simp [initializeRunner, hb] at h
  have hmain : (initializeRunner B r).1.1 = r₁.initializeSegments.initializeMainEntrypoint.1.1 ∧
      (initializeRunner B r).2.finalPc = r₁.initializeSegments.initializeMainEntrypoint.2.finalPc ∧
      (initializeRunner B r).2.executionPublicMemory =
        r₁.initializeSegments.initializeMainEntrypoint.2.executionPublicMemory := by
    unfold initializeRunner
    rw [hb]
    dsimp only
    split <;> exact ⟨rfl, rfl, rfl⟩
  rw [hmain.1, hmain.2.1, hmain.2.2]
  rw [initializeBuiltins_of_found (selectBuiltins_snd_of_ok hb)] at hb
  cases hb
  refine ⟨fun hpm => initializeMainEntrypoint_finalPc hpm, fun hpm => ?_⟩
  rw [initializeMainEntrypoint_executionPublicMemory (by exact hpm),
    length_filter_included_initializeSegments, hpm]

/-! ## The builtins `Initialize` selects -/

/-- `initializeBuiltins` on a layout whose runners have distinct names. It fails exactly when
the program names a builtin the layout lacks, and `Initialize` then returns the runner as it
was. Otherwise the runners are the layout's, filtered to those the program names outside proof
mode, each included exactly when the program names it. When the program's builtins are distinct
and come in the layout's order, the included runners come in the program's order, and the
builtins' part of the main stack is their bases in that order. -/
theorem initializeBuiltins_selects (B : BuiltinImpl) (r : CairoRunner)
    (hnames : (r.layout.builtins.map (·.name)).Nodup) :
    ((∃ e, r.initializeBuiltins = .error e) ↔
      ∃ b ∈ r.program.builtins, ∀ l ∈ r.layout.builtins, l.name ≠ b) ∧
    (∀ e, r.initializeBuiltins = .error e → initializeRunner B r = ((⟨0, 0⟩, some e), r)) ∧
    ∀ r₁, r.initializeBuiltins = .ok r₁ →
      r₁ = { r with vm := { r.vm with builtinRunners := r₁.vm.builtinRunners } } ∧
      r₁.vm.builtinRunners = selectedRunners r.proofMode r.program.builtins r.layout.builtins ∧
      (∀ b ∈ r₁.vm.builtinRunners, b.included = decide (b.name ∈ r.program.builtins)) ∧
      (r.program.builtins.Nodup → r.program.builtins.Sublist (r.layout.builtins.map (·.name)) →
        let rs := r₁.initializeSegments.vm.builtinRunners
        (rs.filter (·.included)).map (·.name) = r.program.builtins ∧
        mainStack rs = (rs.filter (·.included)).map fun b => .relocatable b.base) := by
  refine ⟨⟨fun ⟨_, h⟩ => selectBuiltins_snd_ne_nil_iff.mp (selectBuiltins_snd_of_error h),
    fun h => ⟨_, initializeBuiltins_of_missing (selectBuiltins_snd_ne_nil_iff.mpr h)⟩⟩,
    fun e h => by unfold initializeRunner; rw [h], fun r₁ h => ?_⟩
  rw [initializeBuiltins_of_found (selectBuiltins_snd_of_ok h), Except.ok.injEq] at h
  subst h
  have hsel := selectBuiltins_fst r.proofMode r.program.builtins _ hnames
  refine ⟨rfl, hsel, fun b hb => ?_, fun hnd hsub => ⟨?_, mainStack_eq _⟩⟩
  · rw [hsel, selectedRunners, List.mem_map] at hb
    obtain ⟨l, -, rfl⟩ := hb
    rfl
  · rw [initializeSegments_eq]
    dsimp only
    rw [map_name_filter_included_initializeBuiltinSegments, hsel,
      map_name_filter_included_selectedRunners, filter_mem_of_sublist hnames hsub]

theorem initializeBuiltins_selects_pedersen :
    let r := CairoRunner.new ⟨[], ["pedersen"], [], 0, 0⟩
      ⟨"small", [⟨"output", ⟨0, 0⟩, false, 0, none⟩, ⟨"pedersen", ⟨0, 0⟩, false, 8, none⟩],
        8, 4, 8, none⟩ false
    let B : BuiltinImpl := ⟨fun _ => none, fun _ _ p => .ok (p, 0), fun _ _ _ => .ok (0, 0),
      fun _ _ _ => .ok 0, fun _ _ => (none, none), fun _ _ _ => .ok 0, fun _ _ _ => 0⟩
    (r.layout.builtins.map (·.name)).Nodup ∧
    ((∃ e, r.initializeBuiltins = .error e) ↔
      ∃ b ∈ r.program.builtins, ∀ l ∈ r.layout.builtins, l.name ≠ b) ∧
    (∀ e, r.initializeBuiltins = .error e → initializeRunner B r = ((⟨0, 0⟩, some e), r)) ∧
    ∀ r₁, r.initializeBuiltins = .ok r₁ →
      r₁ = { r with vm := { r.vm with builtinRunners := r₁.vm.builtinRunners } } ∧
      r₁.vm.builtinRunners = selectedRunners r.proofMode r.program.builtins r.layout.builtins ∧
      (∀ b ∈ r₁.vm.builtinRunners, b.included = decide (b.name ∈ r.program.builtins)) ∧
      (r.program.builtins.Nodup → r.program.builtins.Sublist (r.layout.builtins.map (·.name)) →
        let rs := r₁.initializeSegments.vm.builtinRunners
        (rs.filter (·.included)).map (·.name) = r.program.builtins ∧
        mainStack rs = (rs.filter (·.included)).map fun b => .relocatable b.base) :=
  ⟨by decide, initializeBuiltins_selects _ _ (by decide)⟩

end CairoRunner

end CairoVm
