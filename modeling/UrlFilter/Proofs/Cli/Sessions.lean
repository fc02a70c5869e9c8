import UrlFilter.Cli.Run
import UrlFilter.Proofs.Cli.Storage
import UrlFilter.Proofs.RuleBase.BlockedHosts
import UrlFilter.Proofs.Snapshot.RoundTrip

/-!
# Compiled and stored rule bases

What the commands do in a session. Reading lists and settings leaves the disk as it is, so a rule base
that a session compiles and stores is the one that it would check lookups against when given the lists.
-/

namespace UrlFilter.Cli

section

variable {α β : Type} {s s' : Session}

/-- What a step does in a session. -/
def inSession (x : Step (StateM Session) α) (s : Session) : Except Text α × Session := x.run s

/-- A step behind another is done in the session that this leaves, or not at all. -/
theorem inSession_bind (x : Step (StateM Session) α) (f : α → Step (StateM Session) β) (s : Session) :
    inSession (x >>= f) s =
      match inSession x s with
      | (.ok a, t) => inSession (f a) t
      | (.error e, t) => (.error e, t) := by
  have h : inSession (x >>= f) s = ExceptT.bindCont f (inSession x s).1 (inSession x s).2 := rfl
  rw [h]
  rcases inSession x s with ⟨_ | a, t⟩ <;> rfl

/-- What comes of a step leaves some session behind. -/
theorem exists_inSession_eq {x : Step (StateM Session) α} {r : Except Text α} (h : (inSession x s).1 = r) :
    ∃ t, inSession x s = (r, t) := ⟨_, Prod.ext h rfl⟩

/-- Steps that went well went well one after the other. -/
theorem of_inSession_bind {x : Step (StateM Session) α} {f : α → Step (StateM Session) β} {b : β}
    (h : inSession (x >>= f) s = (.ok b, s')) :
    ∃ a t, inSession x s = (.ok a, t) ∧ inSession (f a) t = (.ok b, s') := by
  rw [inSession_bind] at h
  rcases hx : inSession x s with ⟨_ | a, t⟩
  · simp [hx] at h
  · rw [hx] at h
    exact ⟨a, t, rfl, h⟩

/-- A step behind one that went well is done with what this gave. -/
theorem inSession_bind_ok {x : Step (StateM Session) α} {f : α → Step (StateM Session) β} {a : α}
    {t : Session} (h : inSession x s = (.ok a, t)) :
    inSession (x >>= f) s = inSession (f a) t := by
  rw [inSession_bind, h]

end

open Session (world)

/-! ## Steps that leave the disk as it is -/

/-- What is given leaves the session as it is. -/
@[simp] theorem inSession_pure {α : Type} (a : α) (s : Session) :
    inSession (pure a) s = (.ok a, s) := rfl

/-- A failure leaves the session as it is. -/
@[simp] theorem inSession_fail {α : Type} (message : Text) (s : Session) :
    inSession (fail message : Step (StateM Session) α) s = (.error message, s) := rfl

/-- What is said is printed, and changes nothing else. -/
@[simp] theorem inSession_say (line : Text) (s : Session) :
    inSession (say world line) s = (.ok (), { s with printed := line :: s.printed }) := rfl

/-- What was found before is given or fails, and leaves the session as it is. -/
@[simp] theorem inSession_result {ε α : Type} (message : ε → Text) (r : Except ε α) (s : Session) :
    inSession (result message r) s = (r.mapError message, s) := rfl

/-- Reading a file leaves the session as it is. -/
@[simp] theorem inSession_read (message : FileError → Text) (path : Text) (s : Session) :
    inSession (attempt message (world.read path)) s = ((s.disk.read path).mapError message, s) := rfl

/-- The clock stands still. -/
@[simp] theorem inSession_clock (s : Session) :
    inSession (ExceptT.lift world.clock) s = (.ok 0, s) := rfl

/-- What is said line by line leaves the disk as it is. -/
theorem disk_of_sayAll {lines : List Text} {s s' : Session} {r : Except Text Unit}
    (h : inSession (sayAll world lines) s = (r, s')) : s'.disk = s.disk := by
  induction lines generalizing s with
  | nil =>
    rw [sayAll, inSession_pure, Prod.mk.injEq] at h
    rw [← h.2]
  | cons line lines ih =>
    rw [sayAll, inSession_bind_ok (inSession_say line s)] at h
    have hdisk := ih h
    exact hdisk

/-- Settings are read in the same way from the same disk. -/
theorem loadSettings_spec {config : Option Text} {s s' : Session} {settings : Settings}
    (h : inSession (loadSettings world config) s = (.ok settings, s')) :
    s' = s ∧ ∀ t : Session, t.disk = s.disk →
      inSession (loadSettings world config) t = (.ok settings, t) := by
  cases config with
  | none =>
    rw [loadSettings, inSession_pure] at h
    simp only [Prod.mk.injEq, Except.ok.injEq] at h
    exact ⟨h.2.symm, fun t _ => by rw [loadSettings, inSession_pure, h.1]⟩
  | some path =>
    rw [loadSettings] at h
    obtain ⟨text, s₁, hread, hrest⟩ := of_inSession_bind h
    rw [inSession_read, Prod.mk.injEq] at hread
    obtain ⟨hread, rfl⟩ := hread
    cases hsettings : Settings.read? text with
    | none => simp [hsettings] at hrest
    | some settings' =>
      simp only [hsettings, inSession_pure, Prod.mk.injEq, Except.ok.injEq] at hrest
      obtain ⟨rfl, rfl⟩ := hrest
      refine ⟨rfl, fun t ht => ?_⟩
      have hread' := inSession_read (fun e => about "Failed to read config " path ": " e.message) path t
      rw [ht, hread] at hread'
      rw [loadSettings, inSession_bind_ok hread', hsettings, inSession_pure]

/-- Lists are read in the same way from the same disk, whether or not it is told of each. -/
theorem readLists_spec {p : Policy} {verbose : Bool} {n : Nat} {paths : List Text} {b b' : Builder}
    {s s' : Session} (h : inSession (readLists world p verbose n paths b) s = (.ok b', s')) :
    s'.disk = s.disk ∧ ∀ t : Session, t.disk = s.disk →
      inSession (readLists world p false n paths b) t = (.ok b', t) := by
  induction paths generalizing n b s with
  | nil =>
    rw [readLists, inSession_pure] at h
    simp only [Prod.mk.injEq, Except.ok.injEq] at h
    exact ⟨by rw [h.2], fun t _ => by rw [readLists, inSession_pure, h.1]⟩
  | cons path paths ih =>
    rw [readLists] at h
    obtain ⟨text, s₁, hread, hrest⟩ := of_inSession_bind h
    rw [inSession_read, Prod.mk.injEq] at hread
    obtain ⟨hread, rfl⟩ := hread
    -- Telling of a list changes what has been said, and not the disk.
    have hstep : ∃ s₂ : Session, s₂.disk = s.disk ∧
        inSession (readLists world p verbose (n + 1) paths (b.addSource p text)) s₂ = (.ok b', s') := by
      cases verbose with
      | false => exact ⟨s, rfl, by simpa using hrest⟩
      | true =>
        simp only [if_true] at hrest
        obtain ⟨_, s₂, hsay, hrest⟩ := of_inSession_bind hrest
        rw [inSession_say, Prod.mk.injEq] at hsay
        exact ⟨s₂, by rw [← hsay.2], hrest⟩
    obtain ⟨s₂, hdisk, hrest⟩ := hstep
    obtain ⟨hdisk', hsame⟩ := ih hrest
    refine ⟨hdisk'.trans hdisk, fun t ht => ?_⟩
    have hread' := inSession_read (fun e => about "Failed to read '" path "': " e.message) path t
    rw [ht, hread] at hread'
    rw [readLists, inSession_bind_ok hread']
    simpa using hsame t (ht.trans hdisk.symm)

/-- Lists are compiled in the same way from the same disk, whether or not it is told of each; what comes
out was built. -/
theorem compileLists_spec {inputs : List Text} {settings : Settings} {verbose : Bool} {base : RuleBase}
    {r : Report} {s s' : Session}
    (h : inSession (compileLists world inputs settings false verbose) s = (.ok (base, r), s')) :
    s'.disk = s.disk ∧
      (∀ t : Session, t.disk = s.disk →
        inSession (compileLists world inputs settings false false) t = (.ok (base, r), t)) ∧
      ∃ (b : Builder) (p : Policy), b.build p .inOrder = .ok (base, r) := by
  unfold compileLists at h ⊢
  cases hinputs : inputs.isEmpty with
  | true => simp [hinputs, inSession_bind] at h
  | false =>
    simp only [hinputs, Bool.false_eq_true, if_false] at h ⊢
    obtain ⟨p, s₁, hp, hrest⟩ := of_inSession_bind h
    obtain ⟨b, s₂, hb, hbuild⟩ := of_inSession_bind hrest
    rw [inSession_result, Prod.mk.injEq] at hp hbuild
    obtain ⟨hp, rfl⟩ := hp
    obtain ⟨hbuild, rfl⟩ := hbuild
    obtain ⟨hdisk, hsame⟩ := readLists_spec hb
    refine ⟨hdisk, fun t ht => ?_, b, p, mapError_eq_ok_iff.mp hbuild⟩
    have hp' := inSession_result Policy.Failure.message (Policy.ofSettings settings) t
    rw [hp] at hp'
    rw [inSession_bind_ok hp', inSession_bind_ok (hsame t ht), inSession_result, hbuild]

/-- The rule base of lists is compiled in the same way from the same disk. -/
theorem ruleBaseOf_lists {inputs : List Text} {config : Option Text} {settings : Settings}
    {base : RuleBase} {r : Report} {s s₁ s₂ t : Session} {verbose : Bool}
    (hsettings : inSession (loadSettings world config) s = (.ok settings, s₁))
    (hlists : inSession (compileLists world inputs settings false verbose) s₁ = (.ok (base, r), s₂))
    (ht : t.disk = s.disk) :
    inSession (ruleBaseOf world (.lists inputs config)) t = (.ok base, t) := by
  obtain ⟨rfl, hsettings'⟩ := loadSettings_spec hsettings
  obtain ⟨-, hlists', -⟩ := compileLists_spec hlists
  rw [ruleBaseOf, inSession_bind_ok (hsettings' t ht), inSession_bind_ok (hlists' t ht)]
  rfl

/-- The rule base of lists was built, and nothing changed on the way. -/
theorem built_of_ruleBaseOf {inputs : List Text} {config : Option Text} {base : RuleBase} {s s' : Session}
    (h : inSession (ruleBaseOf world (.lists inputs config)) s = (.ok base, s')) :
    s' = s ∧ ∃ (b : Builder) (p : Policy) (r : Report), b.build p .inOrder = .ok (base, r) := by
  rw [ruleBaseOf] at h
  obtain ⟨settings, s₁, hsettings, h₁⟩ := of_inSession_bind h
  obtain ⟨⟨base', r⟩, s₂, hcompile, h₂⟩ := of_inSession_bind h₁
  obtain ⟨rfl, -⟩ := loadSettings_spec hsettings
  obtain ⟨-, hsame, b, p, hbuild⟩ := compileLists_spec hcompile
  have hstate := congrArg Prod.snd ((hsame s₁ rfl).symm.trans hcompile)
  rw [inSession_pure, Prod.mk.injEq, Except.ok.injEq] at h₂
  obtain ⟨rfl, rfl⟩ := h₂
  exact ⟨hstate.symm, b, p, r, hbuild⟩

/-! ## Storing and checking -/

/-- What was written without failure was written to the disk. -/
theorem inSession_write {message : FileError → Text} {path content : Text} {s s' : Session}
    (h : inSession (attempt message (world.write path content)) s = (.ok (), s')) :
    s.disk.write path content = .ok s'.disk := by
  have hrun : inSession (attempt message (world.write path content)) s =
      ((s.change (s.disk.write path content)).1.mapError message,
        (s.change (s.disk.write path content)).2) := rfl
  rw [hrun, Prod.mk.injEq] at h
  obtain ⟨hok, rfl⟩ := h
  cases hw : s.disk.write path content with
  | error e => simp [hw, Session.change, Except.mapError] at hok
  | ok d => rfl

/-- A rule base that was stored is read as it was written. -/
theorem read_of_store {path : Text} {base : RuleBase} {s s' : Session}
    (h : inSession (store world path base) s = (.ok (), s')) :
    s'.disk.read path = .ok (Snapshot.ofRuleBase base).write := by
  unfold store at h
  cases hparent : (Path.parent path).isEmpty with
  | true =>
    simp only [hparent, Bool.not_true, Bool.false_eq_true, if_false] at h
    exact Disk.read_of_write (inSession_write h)
  | false =>
    simp only [hparent, Bool.not_false, if_true] at h
    obtain ⟨_, s₁, -, hrest⟩ := of_inSession_bind h
    exact Disk.read_of_write (inSession_write hrest)

/-- What a compilation stores is the rule base of its lists, unless its report is written there. -/
theorem read_of_compile {job : Job} {s s' : Session} {base : RuleBase} (hrank : job.byKeyword = false)
    (hlists : inSession (ruleBaseOf world (.lists job.inputs job.config)) s = (.ok base, s))
    (h : inSession (compile world job) s = (.ok (), s'))
    (hreport : ∀ path, job.report = some path → s'.disk.target path ≠ s'.disk.target job.output) :
    s'.disk.read job.output = .ok (Snapshot.ofRuleBase base).write := by
  unfold compile at h
  obtain ⟨settings, s₁, hsettings, h₁⟩ := of_inSession_bind h
  rw [inSession_bind_ok (inSession_clock s₁), hrank] at h₁
  obtain ⟨⟨base', r⟩, s₂, hcompile, h₂⟩ := of_inSession_bind h₁
  have hbase := ruleBaseOf_lists hsettings hcompile (t := s) rfl
  rw [hlists, Prod.mk.injEq, Except.ok.injEq] at hbase
  obtain ⟨rfl, -⟩ := hbase
  rw [inSession_bind_ok (inSession_clock s₂)] at h₂
  obtain ⟨_, s₃, hstore, h₃⟩ := of_inSession_bind h₂
  have hstored := read_of_store hstore
  cases hpath : job.report with
  | none =>
    simp only [hpath] at h₃
    rw [disk_of_sayAll h₃]
    exact hstored
  | some path =>
    simp only [hpath] at h₃
    obtain ⟨_, s₄, hwrite, h₄⟩ := of_inSession_bind h₃
    have hne := hreport path hpath
    rw [disk_of_sayAll h₄] at hne ⊢
    exact Disk.read_of_write_of_target_ne (inSession_write hwrite) hstored hne

/-- The line that tells of a verdict. -/
def verdictLine (v : Verdict) : Text :=
  v.decision.word ++ " (".toList ++ groundText v.ground ++ [')']

/-- The verdict of the rule base is printed. -/
theorem inSession_check {o : Origin} {l : Lookup} {base : RuleBase} {s : Session}
    (h : inSession (ruleBaseOf world o) s = (.ok base, s)) :
    inSession (check world o l) s =
      (.ok (), { s with printed := verdictLine (base.judge .silent l) :: s.printed }) := by
  rw [check, inSession_bind_ok h]
  rfl

/-- The rule base of a file is the one that the document in it makes. -/
theorem ruleBaseOf_stored {path t : Text} {base : RuleBase} {s : Session}
    (hread : s.disk.read path = .ok t) (hload : Snapshot.load t = .ok base) :
    inSession (ruleBaseOf world (.stored path)) s = (.ok base, s) := by
  have hread' := inSession_read (fun e => about "Failed to read '" path "': " e.message) path s
  rw [hread] at hread'
  rw [ruleBaseOf, loadRuleBase, inSession_bind_ok hread', inSession_result, hload]
  rfl

end UrlFilter.Cli

namespace UrlFilter

open Cli Session

/-- A rule base that was built without regular expressions is the same after export and load: its
snapshot is, every bucket matches the same texts, and every verdict is the same. So a lookup is answered
from a stored rule base as it is from the lists that the rule base was compiled from, where documents are
read as they are written and the path of the report, if there is one, leads elsewhere than that of the rule base. -/
theorem Builder.build_reloads {b : Builder} {p : Policy} {ranking : Ranking} {base : RuleBase}
    {report : Report} (hbuild : b.build p ranking = .ok (base, report)) (hraw : base.HasNoRaw) :
    ∃ loaded, (Snapshot.ofRuleBase base).toRuleBase = .ok loaded ∧
      Snapshot.ofRuleBase loaded = Snapshot.ofRuleBase base ∧
      (∀ k t, (loaded.bucket k).isMatch t = (base.bucket k).isMatch t) ∧
      (∀ filter l, loaded.judge filter l = base.judge filter l) ∧
      (Snapshot.read? (Snapshot.ofRuleBase base).write = some (Snapshot.ofRuleBase base) →
        ∀ (job : Job) (s s' : Session) (l : Lookup), job.byKeyword = false →
          inSession (ruleBaseOf world (.lists job.inputs job.config)) s = (.ok base, s) →
          inSession (compile world job) s = (.ok (), s') →
          (∀ path, job.report = some path → s'.disk.target path ≠ s'.disk.target job.output) →
          ∃ line,
            inSession (check world (.lists job.inputs job.config) l) s =
              (.ok (), { s with printed := line :: s.printed }) ∧
            inSession (check world (.stored job.output) l) s' =
              (.ok (), { s' with printed := line :: s'.printed })) := by
  obtain ⟨loaded, hloaded, hbucket, hhosts⟩ :=
    Snapshot.toRuleBase_ofRuleBase fun k => Build.reloads_of_build hbuild hraw k
  have hjudge (filter : PreFilter) (l : Lookup) : loaded.judge filter l = base.judge filter l :=
    RuleBase.judge_congr hbucket hhosts filter l
  refine ⟨loaded, hloaded, Snapshot.ofRuleBase_congr hbucket hhosts, fun k t => by rw [hbucket], hjudge,
    ?_⟩
  intro hdocument job s s' l hrank hlists hcompile hreport
  have hread := read_of_compile hrank hlists hcompile hreport
  have hload : Snapshot.load (Snapshot.ofRuleBase base).write = .ok loaded := by
    simp only [Snapshot.load, hdocument, hloaded]
  refine ⟨verdictLine (base.judge .silent l), inSession_check hlists, ?_⟩
  rw [inSession_check (ruleBaseOf_stored hread hload), hjudge]

/-- A disk with a list of rules with bars, brackets, backslashes and other characters, and with settings that admit
every rule. -/
def listed : Session where
  disk := .ofFiles [("list".toList, some "||a*b.c^\n|\\)|[é^*]*".toList),
    ("settings".toList, some (Json.record (Settings.blocking "b.c".toList).fields).compact)]

/-- Compiles the list, and stores the rule base and the report side by side in a directory that is not there yet. -/
def storing : Job where
  inputs := ["list".toList]
  config := some "settings".toList
  output := "out/rules".toList
  byKeyword := false
  report := some "out/report".toList
  verbose := false

/-- A lookup is answered from the stored rule base of the list as from the list. -/
theorem Builder.build_reloads_sample :
    ∃ (b : Builder) (p : Policy) (base loaded : RuleBase) (report : Report) (s' : Session) (line : Text),
      b.build p .inOrder = .ok (base, report) ∧ base.HasNoRaw ∧
      (Snapshot.ofRuleBase base).toRuleBase = .ok loaded ∧
      (∀ filter l, loaded.judge filter l = base.judge filter l) ∧
      inSession (compile world storing) listed = (.ok (), s') ∧
      inSession (check world (.lists storing.inputs storing.config) { url := "http://axb.c/".toList }) listed =
        (.ok (), { listed with printed := line :: listed.printed }) ∧
      inSession (check world (.stored storing.output) { url := "http://axb.c/".toList }) s' =
        (.ok (), { s' with printed := line :: s'.printed }) := by
  have hok : (inSession (ruleBaseOf world (.lists storing.inputs storing.config)) listed).1.toOption.any (fun base =>
      decide (∀ p ∈ Polarity.all, (base.bucket ⟨.rawPattern, p⟩).rules = []) &&
        decide (Snapshot.read? (Snapshot.ofRuleBase base).write = some (Snapshot.ofRuleBase base))) = true := by
    decide +kernel
  obtain ⟨base, hbase, hrules⟩ := exists_of_toOption_any hok
  obtain ⟨hrules, hdocument⟩ := Bool.and_eq_true_iff.mp hrules
  have hraw : base.HasNoRaw := fun p => of_decide_eq_true hrules p (by cases p <;> decide)
  obtain ⟨s, hlists⟩ := exists_inSession_eq hbase
  obtain ⟨rfl, b, p, report, hbuild⟩ := built_of_ruleBaseOf hlists
  have hcompiles : (inSession (compile world storing) listed).1.toOption.any (fun _ => true) = true := by
    decide +kernel
  obtain ⟨_, hstored, -⟩ := exists_of_toOption_any hcompiles
  obtain ⟨s', hcompile⟩ := exists_inSession_eq hstored
  have helsewhere : ∀ path, storing.report = some path → s'.disk.target path ≠ s'.disk.target storing.output := by
    have hpaths : (inSession (compile world storing) listed).2.disk.target "out/report".toList ≠
        (inSession (compile world storing) listed).2.disk.target storing.output := by decide +kernel
    rintro path ⟨⟩
    rwa [hcompile] at hpaths
  obtain ⟨loaded, hloaded, -, -, hjudge, hcheck⟩ := Builder.build_reloads hbuild hraw
  obtain ⟨line, hfirst, hsecond⟩ := hcheck (of_decide_eq_true hdocument) storing _ s'
    { url := "http://axb.c/".toList } rfl hlists hcompile helsewhere
  exact ⟨b, p, base, loaded, report, s', line, hbuild, hraw, hloaded, hjudge, hcompile, hfirst, hsecond⟩

end UrlFilter
