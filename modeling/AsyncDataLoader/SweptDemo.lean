import AsyncDataLoader.SweepAnalysis
import AsyncDataLoader.SweptReport

/-!
# The demo under the sweep

A sweep and the demo that it starts: the demo does what the configuration of a run says, and its
report is taken when the pipeline has kept its bounds.
-/

namespace AsyncDataLoader

open FileIO

namespace PreprocessDemo

variable {env : DemoEnvironment} {argv : List (List Char)}

/-- The options come from the command, the size and the backend from the system. -/
structure Made (env : DemoEnvironment) (argv : List (List Char)) (context : DemoContext) :
    Prop where
  options : parseOptions argv = .ok context.options
  size : checkedFileSize env.inputSize = .ok context.inputBytes
  backend : (env.backends.create (backendConfig context.options) env.resources).1 =
    .ok context.backend

def Knows (env : DemoEnvironment) (argv : List (List Char)) : DemoPlace → Prop
  | .validateMetricsJsonPath options | .fileSize options => parseOptions argv = .ok options
  | .createBackend options inputBytes =>
    parseOptions argv = .ok options ∧ checkedFileSize env.inputSize = .ok inputBytes
  | .register context | .header context | .startReporter context | .runFile context _ _
  | .stopReporter context _ | .verify context _ | .metrics context _ | .metricsJson context _ _ _
  | .summary context => Made env argv context
  | .parseOptions | .exited _ _ => True

theorem Knows.after {α : Type} {r : Except Failure α} {next : α → DemoPlace}
    (h : ∀ a, r = .ok a → Knows env argv (next a)) : Knows env argv (.after r next) := by
  cases r with
  | error failure => trivial
  | ok a => exact h a rfl

theorem knows_main {u v : DemoState} (hu : Knows env argv u.place)
    (hstep : env.mainStep argv u.files u.place = some v) : Knows env argv v.place := by
  obtain ⟨place,files⟩ := u
  cases place with
  | parseOptions =>
    simp only [DemoEnvironment.mainStep] at hstep
    split_ifs at hstep <;> obtain rfl := Option.some.inj hstep
    · trivial
    · exact .after fun _ hparse => hparse
  | validateMetricsJsonPath options =>
    obtain rfl := Option.some.inj hstep
    exact .after fun _ _ => hu
  | fileSize options =>
    obtain rfl := Option.some.inj hstep
    exact .after fun _ hsize => ⟨hu,hsize⟩
  | createBackend options inputBytes =>
    obtain rfl := Option.some.inj hstep
    exact .after fun _ hbackend => ⟨hu.1,hu.2,hbackend⟩
  | register context | header context | startReporter context | stopReporter context outcome
  | verify context result =>
    obtain rfl := Option.some.inj hstep
    exact .after fun _ _ => hu
  | summary context =>
    obtain rfl := Option.some.inj hstep
    exact .after fun _ _ => trivial
  | runFile context call place =>
    cases place with
    | returned result =>
      obtain rfl := Option.some.inj hstep
      exact hu
    | thrown committed failure =>
      obtain rfl := Option.some.inj hstep
      exact hu
    | _ =>
      simp only [DemoEnvironment.mainStep,Option.map_eq_some_iff] at hstep
      obtain ⟨s,-,rfl⟩ := hstep
      exact hu
  | metrics context result =>
    simp only [DemoEnvironment.mainStep] at hstep
    split at hstep <;> obtain rfl := Option.some.inj hstep <;> exact hu
  | metricsJson context call place position =>
    cases place with
    | returned =>
      obtain rfl := Option.some.inj hstep
      exact hu
    | thrown committed failure =>
      obtain rfl := Option.some.inj hstep
      trivial
    | _ =>
      simp only [DemoEnvironment.mainStep,Option.map_eq_some_iff] at hstep
      obtain ⟨s,-,rfl⟩ := hstep
      exact hu
  | exited code failure => cases hstep

theorem knows_step {action : DemoAction} {u v : DemoState} (hu : Knows env argv u.place)
    (hstep : (env.system argv).step action u = some v) : Knows env argv v.place := by
  cases action with
  | main => exact knows_main hu hstep
  | thread t =>
    obtain ⟨place,files⟩ := u
    cases place with
    | runFile context call place =>
      obtain ⟨s,-,rfl⟩ := Option.map_eq_some_iff.mp hstep
      exact hu
    | _ => cases hstep
  | write answer =>
    obtain ⟨place,files⟩ := u
    cases place with
    | metricsJson context call place position =>
      obtain ⟨s,-,rfl⟩ := Option.map_eq_some_iff.mp hstep
      exact hu
    | _ => cases hstep

theorem reachable_knows {before : FileSystem Path Bytes} {u : DemoState}
    (hu : (env.system argv).Reachable ⟨.parseOptions,before⟩ u) : Knows env argv u.place :=
  hu.invariant (I := fun u : DemoState => Knows env argv u.place) (fun _ _ _ => knows_step)
    (show Knows env argv .parseOptions from trivial)

theorem register_of {options : Options} {s : Instrumentation} (h : register options = .ok s) :
    options.pipeline.validate = .ok () ∧
      s.Of [.stage (ascii "byte_increment"),.executor] := by
  obtain ⟨s₁,hstage,h⟩ := bind_eq_ok h
  obtain ⟨_,hvalid,hexecutor⟩ := bind_eq_ok h
  exact ⟨hvalid,Setup.apply_of (instrument_of hstage) hexecutor⟩

theorem register_names {options : Options} {s : Instrumentation} (h : register options = .ok s) :
    s.registry.gauges.map Prod.fst = PipelineMetricNames.gauges ∧
      s.registry.histograms.map Prod.fst =
        makeStageLatencyMetricName 0 (ascii "byte_increment")::PipelineMetricNames.histograms := by
  obtain ⟨s₁,hstage,h⟩ := bind_eq_ok h
  obtain ⟨_,-,hexecutor⟩ := bind_eq_ok h
  obtain ⟨s₀,happly,hrest⟩ := bind_eq_ok hstage
  obtain rfl := Except.ok.inj hrest
  obtain ⟨r,hadd,hs⟩ := bind_eq_ok happly
  obtain rfl := Except.ok.inj hs
  obtain ⟨r',hregister,hs⟩ := bind_eq_ok hexecutor
  obtain rfl := Except.ok.inj hs
  have hextends := (MetricsRegistry.addHistogram_extends hadd).trans
    (MetricsRegistry.registerRuntimeMetrics_extends hregister)
  exact ⟨hextends.gauges,hextends.histograms⟩

theorem created {environment : BackendEnvironment} {config : BackendConfig} {kind : BackendKind}
    {s : BackendResources} {backend : Backend} (hkind : config.kind = some kind)
    (h : (environment.create config s).1 = .ok backend) :
    ∃ made ∈ config.candidates kind, backend = made.newBackend config := by
  obtain ⟨tried,made,untried,s',hsplit,-,hresult,-⟩ :=
    (createBackendWith_contract environment.operations config s).decided kind hkind
  refine ⟨made,by simp [hsplit],?_⟩
  rw [BackendEnvironment.create,hresult] at h
  rcases create_resources environment config made s' with ⟨failure,heq⟩ | heq
  · rw [heq] at h
    cases h
  · rw [heq] at h
    exact (Except.ok.inj h).symm

theorem report_oneLine (context : DemoContext) (result : PipelineRunResult) :
    Reporting.OneLineStrings (env.report context result) := by
  refine ⟨?_,?_,(Reporting.plainName_literal rfl).text⟩
  · change Reporting.PlainText (ascii (backendName context.options.backendKind))
    cases context.options.backendKind <;> exact (Reporting.plainName_literal rfl).text
  · change Reporting.PlainText (ascii context.backend.name)
    cases context.backend <;> exact (Reporting.plainName_literal rfl).text

end PreprocessDemo

namespace Sweep

open Benchmark KeyValue PreprocessDemo Python Reporting Utf8

theorem demoMetrics_of {options : Options} {s : Instrumentation} {snapshot : Snapshot}
    (hregister : register options = .ok s) (hshown : ShownBy s.registry snapshot) :
    ∃ m : DemoMetrics, m.Of snapshot := by
  obtain ⟨hgauges,hhistograms⟩ := register_names hregister
  have hgauges := hshown.gauges.trans hgauges
  have hhistograms := hshown.histograms.trans hhistograms
  obtain ⟨g₁,gs,heq,-,hrest⟩ := List.map_eq_cons_iff.mp hgauges
  obtain ⟨g₂,gs,rfl,-,hrest⟩ := List.map_eq_cons_iff.mp hrest
  obtain ⟨g₃,gs,rfl,-,hrest⟩ := List.map_eq_cons_iff.mp hrest
  obtain rfl := List.map_eq_nil_iff.mp hrest
  obtain ⟨h₁,hs,heq',-,hrest⟩ := List.map_eq_cons_iff.mp hhistograms
  obtain ⟨h₂,hs,rfl,-,hrest⟩ := List.map_eq_cons_iff.mp hrest
  obtain ⟨h₃,hs,rfl,-,hrest⟩ := List.map_eq_cons_iff.mp hrest
  obtain ⟨h₄,hs,rfl,-,hrest⟩ := List.map_eq_cons_iff.mp hrest
  obtain rfl := List.map_eq_nil_iff.mp hrest
  rw [heq] at hgauges
  rw [heq'] at hhistograms
  exact ⟨⟨g₁,g₂,g₃,h₁,h₂,h₃,h₄⟩,heq,heq',hgauges,hhistograms⟩

theorem selected_of {arguments : Arguments} {inputPath scratchOutput : Text} {config : RunConfig}
    {environment : BackendEnvironment} {s : BackendResources} {backend : Backend}
    (h : (environment.create (backendConfig (demoOptions arguments inputPath scratchOutput config))
      s).1 = .ok backend) :
    ∃ selected : SelectedBackend, (ascii backend.name).map character = selected.label ∧
      (EXPLICIT_SELECTION config.backend).all (· = selected) = true := by
  obtain ⟨made,hmade,rfl⟩ := created rfl h
  cases hrequested : config.backend with
  | auto => cases made with
    | uring => exact ⟨.ioUring,rfl,rfl⟩
    | threadPool => exact ⟨.threadPool,rfl,rfl⟩
    | sync | auto => exact ⟨.sync,rfl,rfl⟩
  | sync =>
    obtain rfl : made = .sync := by
      simpa [backendKind,demoOptions,hrequested,BackendConfig.candidates] using hmade
    exact ⟨.sync,rfl,rfl⟩
  | threadpool =>
    obtain rfl : made = .threadPool := by
      simpa [backendKind,demoOptions,hrequested,BackendConfig.candidates] using hmade
    exact ⟨.threadPool,rfl,rfl⟩
  | uring =>
    obtain rfl : made = .uring := by
      simpa [backendKind,demoOptions,hrequested,BackendConfig.candidates] using hmade
    exact ⟨.ioUring,rfl,rfl⟩

/-- The peaks of a run are within its configuration. -/
structure DemoMetrics.Within (m : DemoMetrics) (config : RunConfig) : Prop where
  inflight : m.inflight.highWatermark ≤ config.maxInflightBuffers
  queues : m.readProcess.highWatermark ≤ config.queueDepth ∧
    m.processWrite.highWatermark ≤ config.queueDepth

/-- What the sweep makes of the output of a run of the demo over this input. -/
structure SweptContract (py : Interpreter) (env : DemoEnvironment) (input : FileIO.Bytes)
    (config : RunConfig) (inputPath : Text) (context : DemoContext) (result : PipelineRunResult)
    (m : DemoMetrics) : Prop where
  bytesWritten : result.bytesWritten = input.length
  metrics : m.Of env.snapshot
  selected : ∃ selected : SelectedBackend,
    (ascii context.backend.name).map character = selected.label ∧
      (EXPLICIT_SELECTION config.backend).all (· = selected) = true
  written : ∃ configuration, writeKeyValueConfiguration env.fp (env.report context result) =
      .ok configuration ∧
    ∀ (floats : FloatText py) (lead : FileIO.Bytes) (output : Text),
      (∀ z ∈ reportedIntegers (env.report context result) m, py.Readable z.natAbs) →
      encode output = lead++ascii "Machine-readable metrics\n"++configuration++
        writeKeyValueResult env.fp env.snapshot (env.report context result) →
      ∀ peakRssKib outcome, readOutcome floats config inputPath peakRssKib
          (universalNewlines output) = .ok outcome ↔
        (env.inputSize = .ok input.length ∧ m.Within config) ∧
          outcome = reportedOutcome floats (env.report context result) m inputPath peakRssKib

section

variable {env : DemoEnvironment} {before files : FileSystem Path FileIO.Bytes}
  {arguments : Arguments} {config : RunConfig} {executable inputPath scratchOutput : Text}
  {context : DemoContext} {result : PipelineRunResult}

theorem withinBounds_iff {m : DemoMetrics} {n : ℕ}
    (hoptions : context.options = demoOptions arguments inputPath scratchOutput config)
    (hsize : checkedFileSize env.inputSize = .ok context.inputBytes)
    (hwritten : result.bytesWritten = n) :
    WithinBounds config (env.report context result) m ↔
      env.inputSize = .ok n ∧ m.Within config := by
  obtain ⟨size,hsize⟩ : ∃ size, env.inputSize = .ok size ∧ context.inputBytes = size := by
    unfold checkedFileSize at hsize
    split at hsize
    · cases hsize
    · split_ifs at hsize
      exact ⟨_,by assumption,(Except.ok.inj hsize).symm⟩
  have hpipeline : (env.report context result).pipelineConfig =
      ⟨config.blockSize,config.maxInflightBuffers,config.queueDepth,ALIGNMENT⟩ := by
    change context.options.pipeline = _
    rw [hoptions]
    rfl
  rw [hsize.1]
  constructor
  · intro h
    have hbytes : result.bytesWritten = context.inputBytes := h.bytes
    exact ⟨by rw [← hsize.2,← hbytes,hwritten],h.inflight,h.queues⟩
  · rintro ⟨hsame,hwithin⟩
    refine ⟨?_,by rw [hpipeline],hwithin.inflight,hwithin.queues⟩
    change result.bytesWritten = context.inputBytes
    rw [hwritten,hsize.2,Except.ok.inj hsame]

/-- A run of the demo with the command of a run of the sweep does what the configuration says, and
the sweep takes its report exactly when the file was as long as the system had said and no peak
exceeds its bound. -/
theorem sweep_accepts_demo {py : Interpreter} {options : List (SweepOption × Text)}
    (harguments : parseArguments py options = .ok arguments)
    (hplanned : config ∈ buildRunPlan arguments) (hfp : Documented env.fp)
    (hh : env.Honoured (demoOptions arguments inputPath scratchOutput config) before)
    (hu : (env.system ((demoCommand arguments executable inputPath scratchOutput config).map
      argument)).Reachable ⟨.parseOptions,before⟩ ⟨.metrics context result,files⟩)
    {s : Instrumentation} (hregister : register context.options = .ok s)
    (hshown : ShownBy s.registry env.snapshot) :
    (Fits arguments config ∧
      context.options = demoOptions arguments inputPath scratchOutput config) ∧
      ∃ m, SweptContract py env (before.contents env.inputInode) config inputPath context result
        m := by
  have hmade : Made env _ context := reachable_knows hu
  obtain ⟨hfits,hoptions⟩ := (parseOptions_command (parseArguments_accepted harguments)
    (parseArguments_given harguments).threadWorkers.1 (mem_buildRunPlan.mp hplanned) executable
    inputPath scratchOutput).mp hmade.options
  have hparse := hmade.options
  rw [hoptions] at hparse
  have hcommitted : Committed env _ before context result files := reachable_consistent hh hparse hu
  have hbytes := hcommitted.bytesWritten hh (parseOptions_ok hparse).pipeline
  obtain ⟨m,hm⟩ := demoMetrics_of hregister hshown
  obtain ⟨hvalid,hof⟩ := register_of hregister
  have hselected := hmade.backend
  rw [hoptions] at hselected
  obtain ⟨configuration,hconfiguration⟩ : ∃ configuration,
      writeKeyValueConfiguration env.fp (env.report context result) = .ok configuration :=
    ⟨_,bind_of_ok (PipelineConfig.bufferPoolBytes_eq_ok.mpr ⟨hvalid,rfl⟩)⟩
  refine ⟨⟨hfits,hoptions⟩,m,hbytes,hm,selected_of hselected,configuration,hconfiguration,?_⟩
  intro floats lead output hreadable houtput peakRssKib outcome
  have hplain := names_plain hof hshown fun name hname => by
    have heq : name = ascii "byte_increment" := by simpa using hname
    rw [heq]
    exact plainName_literal rfl
  have hbehind : encode output = (lead++ascii "Machine-readable metrics")++10::(configuration++
      writeKeyValueResult env.fp env.snapshot (env.report context result)) := by
    rw [houtput]
    simp only [List.append_assoc,List.append_cancel_left_eq]
    rfl
  have hfound := found_of_printed hfp (instrumented hof hshown) hplain
    (report_oneLine context result) hconfiguration hbehind
  have hreported := reported_of_found hfp hfound hm rfl rfl (by
    change ∀ b ∈ ascii context.backend.name, b.toNat < 128
    cases context.backend <;> exact toNat_lt_of_isAscii rfl)
  rw [readOutcome_iff floats hfp hreported hreadable rfl,
    withinBounds_iff hoptions hmade.size hbytes]

end

def smallestCommand : List (List Char) :=
  (demoCommand smallestArguments "demo".toList "in".toList "out".toList smallestRun).map argument

def smallestDemo : Options := demoOptions smallestArguments "in".toList "out".toList smallestRun

def smallestMetrics : Instrumentation :=
  match register smallestDemo with
  | .ok s => s
  | .error _ => ⟨.empty,[]⟩

/-- A system in which the metrics are those that the demo has registered. -/
def demoSystem : DemoEnvironment :=
  { DemoEnvironment.smallest with snapshot := smallestMetrics.registry.snapshot }

theorem demoSystem_honoured : demoSystem.Honoured smallestDemo withInput :=
  have h := DemoEnvironment.smallest_honoured
  { h with
    status := fun heq => absurd (Prod.mk.inj heq).2 (by decide)
    reads := ⟨h.reads.delivered,h.reads.eof⟩
    jsonTemporary := fun _ _ _ hpath => by cases hpath }

set_option maxRecDepth 100000 in
-- The buffers of the smallest run have 4096 bytes each.
theorem demoSystem_verify : ∃ u,
    (demoSystem.system smallestCommand).exec ⟨.parseOptions,withInput⟩
      (smallestActions.take 44) = some u ∧ ∃ context result, u.place = .verify context result ∧
    ∃ input output, demoSystem.openVerified u.files = (.ok input,.ok output) := by
  refine ⟨_,rfl,?_⟩
  exact ⟨_,_,rfl,_,_,rfl⟩

theorem demoSystem_metrics : ∃ context result files,
    (demoSystem.system smallestCommand).Reachable ⟨.parseOptions,withInput⟩
      ⟨.metrics context result,files⟩ := by
  have hparse : parseOptions smallestCommand = .ok smallestDemo := by decide
  obtain ⟨u,hu,context,result,hplace,input,output,hopened⟩ := demoSystem_verify
  obtain ⟨hinput,houtput⟩ := Prod.mk.inj hopened
  have hcommitted : Committed demoSystem smallestDemo withInput context result u.files := by
    have hconsistent := reachable_consistent demoSystem_honoured hparse ⟨_,hu⟩
    rwa [hplace] at hconsistent
  have hverified := hcommitted.verified demoSystem_honoured (parseOptions_ok hparse).pipeline
    hopened (openSmall_ok hinput).1 (openSmall_ok houtput).1 rfl rfl
  refine ⟨context,result,u.files,TransitionSystem.Reachable.tail ⟨_,hu⟩ (l := .main) ?_⟩
  change demoSystem.mainStep smallestCommand u.files u.place = _
  rw [hplace,DemoEnvironment.mainStep,hverified]
  rfl

theorem sweep_accepts_demo_smallest : ∃ context result files,
    (demoSystem.system smallestCommand).Reachable ⟨.parseOptions,withInput⟩
      ⟨.metrics context result,files⟩ ∧
    register context.options = .ok smallestMetrics ∧
    ∃ m, SweptContract exact demoSystem [1,2,3] smallestRun "in".toList context result m := by
  obtain ⟨context,result,files,hu⟩ := demoSystem_metrics
  have hmade : Made demoSystem smallestCommand context := reachable_knows hu
  have hparse : parseOptions smallestCommand = .ok smallestDemo := by decide
  have hoptions : context.options = smallestDemo := Except.ok.inj (hmade.options.symm.trans hparse)
  have hregister : register context.options = .ok smallestMetrics := by
    rw [hoptions]
    rfl
  refine ⟨context,result,files,hu,hregister,?_⟩
  have harguments : parseArguments exact smallestOptions = .ok smallestArguments := by
    decide +kernel
  exact (sweep_accepts_demo harguments (by decide) rational_documented demoSystem_honoured hu
    hregister (shownBy_snapshot _)).2

end Sweep
end AsyncDataLoader
