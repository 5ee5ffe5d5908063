import CodingOS.Effects.AtMostOnce
import CodingOS.Effects.GitHub
import CodingOS.Systems.Audit

/-!
# The commands of the GitHub backend

Which commands an execution starts that may change something outside: at most one, with the head, the branch and
the body of the payload; and none when the execution raises anything but `AmbiguousMutation`.  With the laws of the
driver this bounds what all the processes together start for one operation.
-/

namespace CodingOS.Effects.GitHubBackend

open CodingOS.Python CodingOS.Campaign CodingOS.Store Systems
open ExternalEffectDriver (DriverException)

/-- A command that was started. -/
structure Command where
  argv : List String
  mutation : Bool

/-- The commands an operation starts. -/
def startedBy : (op : GitHubOp) → GitHubAnswer op → List Command
  | .run argv _ mutation, result => if result.started then [⟨argv, mutation⟩] else []
  | .resolve _, _ | .isDir _, _ => []

/-- The commands outside, in the order in which they start. -/
abbrev commands : Machine GitHubAnswer (List Command) := logging startedBy

/-- No command that may change something. -/
def Quiet (log : List Command) : Prop := ∀ c ∈ log, c.mutation = false

/-- An operation that runs no mutation. -/
def GitHubOp.reads : GitHubOp → Prop
  | .run _ _ mutation => mutation = false
  | .resolve _ | .isDir _ => True

theorem startedBy_reads {op : GitHubOp} {answer : GitHubAnswer op} (h : op.reads) : Quiet (startedBy op answer) := by
  cases op with
  | resolve | isDir => exact fun _ hc => absurd hc List.not_mem_nil
  | run argv cwd mutation =>
      intro c hc
      rw [startedBy] at hc
      split at hc
      · rw [List.mem_singleton.mp hc]
        exact h
      · exact absurd hc List.not_mem_nil

section Backend

variable [Runtime] [Toolkit] {git gh : String}

/-- The mutations the backend runs for an effect. -/
inductive Commanded (git gh : String) (payload : Mapping) : EffectKind → List String → Prop
  | push {remote head : String} : requireSha (payload.read "head") "push head" = .ok head →
      Commanded git gh payload .push
        [git, "push", remote, head ++ ":refs/heads/" ++ textOf payload "branch" ""]
  | create {repository : String} : assertCampaignPullRequestBody (payload.read "body") payload = .ok () →
      Commanded git gh payload .createPullRequest
        [gh, "pr", "create", "--repo", repository, "--base", textOf payload "base" "main", "--head",
          textOf payload "head_branch" "", "--title", textOf payload "title" "", "--body", textOf payload "body" ""]
  | edit {repository marker body : String} {comment : ℤ} : commentContract payload = .ok (marker, body) →
      Commanded git gh payload .upsertComment
        [gh, "api", "--method", "PATCH", "repos/" ++ repository ++ "/issues/comments/" ++ intText comment, "-f",
          "body=" ++ body]
  | comment {repository marker body : String} {issue : ℤ} : commentContract payload = .ok (marker, body) →
      Commanded git gh payload .upsertComment
        [gh, "api", "--method", "POST", "repos/" ++ repository ++ "/issues/" ++ intText issue ++ "/comments", "-f",
          "body=" ++ body]
  | merge {repository head method : String} {number : ℤ} {body : Value} :
      assertCampaignPullRequestBody body payload = .ok () →
      requireSha (payload.read "head") "merge head" = .ok head → method ∈ ["merge", "squash", "rebase"] →
      Commanded git gh payload .merge
        [gh, "pr", "merge", intText number, "--repo", repository, "--" ++ method, "--match-head-commit", head]

/-- What holds of the log of an execution, wherever it is cut. -/
structure Lawful (git gh : String) (kind : EffectKind) (payload : Mapping) (log : List Command) : Prop where
  once : log.countP (·.mutation) ≤ 1
  commanded : ∀ c ∈ log, c.mutation = true → Commanded git gh payload kind c.argv

theorem Quiet.lawful {kind : EffectKind} {payload : Mapping} {log : List Command} (h : Quiet log) :
    Lawful git gh kind payload log := by
  refine ⟨?_, fun c hc hmutation => ?_⟩
  · rw [List.countP_eq_zero.mpr fun c hc => by rw [h c hc]; exact Bool.false_ne_true]
    exact Nat.zero_le 1
  · rw [h c hc] at hmutation
    cases hmutation

/-! ### Rules -/

/-- The rule of an execution. -/
abbrev Starts {α : Type} (git gh : String) (kind : EffectKind) (payload : Mapping) (p : Task α)
    (Q : α → List Command → Prop) (E : DriverException → List Command → Prop) (log : List Command) : Prop :=
  p.wp commands (fun _ _ log => Lawful git gh kind payload log) Q E log

variable {α : Type} {kind : EffectKind} {payload : Mapping} {log : List Command}

/-- What an exception leaves: only an ambiguous one has a mutation behind it. -/
def Refusal (exc : DriverException) (log : List Command) : Prop := (∀ message, exc ≠ .ambiguous message) → Quiet log

theorem starts_reads {p : Task α} (h : p.Only GitHubOp.reads) (hlog : Quiet log) :
    Starts git gh kind payload p (fun _ log => Quiet log) (fun _ log => Quiet log) log :=
  h.wp (fun _ _ hreads => startedBy_reads hreads) (fun _ _ _ hquiet => Quiet.lawful hquiet) hlog

theorem starts_bind_reads {β : Type} {p : Task α} {f : α → Task β} {Q : β → List Command → Prop}
    (h : p.Only GitHubOp.reads) (hlog : Quiet log)
    (hf : ∀ a log, Quiet log → Starts git gh kind payload (f a) Q Refusal log) :
    Starts git gh kind payload (p >>= f) Q Refusal log :=
  Program.wp_bind.mpr (Program.wp_mono (starts_reads h hlog) hf fun _ _ hquiet _ => hquiet)

theorem starts_ofExcept {β : Type} {x : Except DriverException α} {f : α → Task β} {Q : β → List Command → Prop}
    (hlog : Quiet log) (hf : ∀ a, x = .ok a → Starts git gh kind payload (f a) Q Refusal log) :
    Starts git gh kind payload (Program.ofExcept x >>= f) Q Refusal log := by
  cases x with
  | error exc => exact fun _ => hlog
  | ok a => exact hf a rfl

theorem starts_ensure {β : Type} {condition : Bool} {exc : DriverException} {f : Unit → Task β}
    {Q : β → List Command → Prop} (hlog : Quiet log)
    (hf : condition = true → Starts git gh kind payload (f ()) Q Refusal log) :
    Starts git gh kind payload (ensure condition exc >>= f) Q Refusal log := by
  rw [ensure]
  cases condition with
  | false => exact fun _ => hlog
  | true => exact hf rfl

/-- **The mutation.** -/
theorem starts_mutation {argv : List String} {cwd : String} {f : String → Mapping} (hlog : Quiet log)
    (h : Commanded git gh payload kind argv) :
    Starts git gh kind payload (run argv cwd true >>= fun output => pure (f output)) (fun _ _ => True) Refusal log := by
  have hone : Lawful git gh kind payload (log ++ [⟨argv, true⟩]) := by
    have hquiet : Lawful git gh kind payload log := hlog.lawful
    refine ⟨?_, fun c hc hmutation => ?_⟩
    · rw [List.countP_append, List.countP_eq_zero.mpr fun c hc => by rw [hlog c hc]; exact Bool.false_ne_true]
      exact le_refl 1
    · rcases List.mem_append.mp hc with hc | hc
      · exact hquiet.commanded c hc hmutation
      · rw [List.mem_singleton.mp hc]
        exact h
  have hlawful : ∀ result, Lawful git gh kind payload (log ++ startedBy (.run argv cwd true) result) := by
    intro result
    rw [startedBy]
    split
    · exact hone
    · rw [List.append_nil]
      exact hlog.lawful
  refine ⟨fun log' htorn => ?_, fun result log' hstep => ?_⟩
  · rcases htorn with rfl | ⟨result, rfl⟩
    · exact hlog.lawful
    · exact hlawful result
  · obtain rfl : log' = log ++ startedBy (.run argv cwd true) result := hstep
    refine ⟨hlawful result, ?_⟩
    cases result with
    | timedOut => exact fun hrefusal => absurd rfl (hrefusal _)
    | osError | valueError =>
        intro _
        show Quiet (log ++ [])
        rw [List.append_nil]
        exact hlog
    | completed returncode stdout stderr =>
        by_cases hcode : returncode = 0
        · show Program.wp commands _ _ _ ((if returncode = 0 then _ else _ : Task String) >>= _) _
          rw [if_pos hcode]
          trivial
        · show Program.wp commands _ _ _ ((if returncode = 0 then _ else _ : Task String) >>= _) _
          rw [if_neg hcode]
          exact fun hrefusal => absurd rfl (hrefusal _)

/-! ### What only reads -/

omit [Runtime] [Toolkit] in
theorem only_ensure {condition : Bool} {exc : DriverException} : (ensure condition exc).Only GitHubOp.reads := by
  rw [ensure]
  cases condition <;> exact trivial

omit [Runtime] [Toolkit] in
theorem only_resolve {path : String} : (resolve path).Only GitHubOp.reads := by
  refine ⟨trivial, fun answer => ?_⟩
  cases answer <;> exact trivial

omit [Runtime] [Toolkit] in
theorem only_run {argv : List String} {cwd : String} : (run argv cwd false).Only GitHubOp.reads := by
  refine ⟨rfl, fun answer => ?_⟩
  cases answer with
  | timedOut | osError | valueError => exact trivial
  | completed returncode stdout stderr =>
      show Program.Only _ (if returncode = 0 then _ else _ : Task String)
      split <;> exact trivial

omit [Runtime] in
theorem only_ghJson {root : String} {args : List String} : (ghJson gh root args).Only GitHubOp.reads := by
  rw [ghJson]
  refine Program.only_bind only_run fun raw => Program.only_bind Program.only_ofExcept fun value => ?_
  cases value <;> exact trivial

omit [Runtime] in
theorem only_localBareRemote {remote : String} : (localBareRemote git remote).Only GitHubOp.reads := by
  rw [localBareRemote]
  refine Program.only_bind Program.only_ofExcept fun parsed => Program.only_bind only_ensure fun _ => ?_
  refine Program.only_bind Program.only_ofExcept fun path => Program.only_bind only_ensure fun _ => ?_
  refine Program.only_bind ⟨trivial, fun answer => ?_⟩ fun target => ?_
  · cases answer <;> exact trivial
  refine Program.only_bind Program.only_ofExcept fun uri => Program.only_bind only_ensure fun _ => ?_
  refine Program.only_bind ⟨trivial, fun _ => trivial⟩ fun isDir => Program.only_bind only_ensure fun _ => ?_
  refine Program.only_bind only_run fun bare => Program.only_bind only_ensure fun _ => ?_
  refine Program.only_bind only_run fun directory => Program.only_bind only_resolve fun observed => ?_
  exact Program.only_bind only_ensure fun _ => Program.only_ofExcept

omit [Runtime] in
theorem only_normalizedRemote {label raw : String} : (normalizedRemote label raw).Only GitHubOp.reads := by
  rw [normalizedRemote]
  refine Program.only_bind Program.only_ofExcept fun normalized => ?_
  cases normalized <;> exact trivial

omit [Runtime] in
theorem only_normalizedRemotes {label : String} {urls : List String} :
    (normalizedRemotes label urls).Only GitHubOp.reads := by
  induction urls with
  | nil => exact trivial
  | cons url urls ih =>
      rw [normalizedRemotes]
      exact Program.only_bind only_normalizedRemote fun _ => Program.only_bind ih fun _ => trivial

omit [Runtime] [Toolkit] in
theorem only_remoteUrls {root remoteName : String} {mode : List String} :
    (remoteUrls git root remoteName mode).Only GitHubOp.reads := by
  rw [remoteUrls]
  exact Program.only_bind only_run fun _ => trivial

theorem only_assertRepositoryBinding {root : String} :
    (assertRepositoryBinding git root payload).Only GitHubOp.reads := by
  rw [assertRepositoryBinding]
  refine Program.only_bind only_ensure fun _ => Program.only_bind Program.only_ofExcept fun parsed => ?_
  generalize (casefold parsed.scheme == "file") = localPush
  refine Program.only_bind ?_ fun expected => ?_
  · split
    · exact only_localBareRemote
    · exact only_normalizedRemote
  refine Program.only_bind only_run fun toplevel => Program.only_bind only_resolve fun observedRoot => ?_
  refine Program.only_bind only_ensure fun _ => ?_
  generalize stableId (payload.getD "remote" (.str "origin")) "Git remote name" = name
  refine Program.only_bind Program.only_ofExcept fun remoteName => ?_
  refine Program.only_bind only_remoteUrls fun fetchUrls => Program.only_bind only_remoteUrls fun pushUrls => ?_
  refine Program.only_bind only_ensure fun _ => Program.only_bind ?_ fun observed => ?_
  · split
    · exact trivial
    · exact only_normalizedRemotes
  refine Program.only_bind only_ensure fun _ => ?_
  split
  · exact Program.only_bind only_ensure fun _ => trivial
  · generalize repositoryFromRemote expected = repository
    refine Program.only_bind Program.only_ofExcept fun selected => ?_
    obtain ⟨selector, ownerName⟩ := selected
    exact Program.only_bind only_ensure fun _ => trivial

omit [Runtime] in
theorem only_issueComments {root repository : String} {issue : ℤ} :
    (issueComments gh root repository issue).Only GitHubOp.reads := by
  rw [issueComments]
  generalize commentMaxPages = pages
  generalize 1 = page
  induction pages generalizing page with
  | zero => exact trivial
  | succ pages ih =>
      rw [issueCommentsFrom]
      refine Program.only_bind only_ghJson fun rows => ?_
      cases rows with
      | tuple items =>
          show Program.Only _ (if items.length < commentPageSize then _ else _ : Task (List Mapping))
          split
          · exact trivial
          · exact Program.only_bind (ih _) fun _ => trivial
      | _ => exact trivial

theorem only_exactPullRequest {root repository : String} :
    (exactPullRequest gh root payload repository).Only GitHubOp.reads := by
  rw [exactPullRequest]
  refine Program.only_bind Program.only_ofExcept fun head => Program.only_bind only_ghJson fun rows => ?_
  cases rows with
  | tuple items =>
      show Program.Only _ (if _ then _ else _ : Task (Option Mapping))
      split <;> exact trivial
  | _ => exact trivial

theorem only_boundPullRequest {root repository : String} :
    (boundPullRequest gh root payload repository).Only GitHubOp.reads := by
  rw [boundPullRequest]
  refine Program.only_bind Program.only_ofExcept fun number => ?_
  split
  · refine Program.only_bind ?_ fun _ => trivial
    rw [pullRequestByNumber]
    refine Program.only_bind only_ghJson fun row => ?_
    cases row with
    | mapping row =>
        refine Program.only_bind Program.only_ofExcept fun observed => Program.only_bind only_ensure fun _ => ?_
        exact Program.only_bind Program.only_ofExcept fun _ => trivial
    | _ => exact trivial
  · exact only_exactPullRequest

theorem only_queryComment {root repository : String} :
    (queryComment gh root repository payload).Only GitHubOp.reads := by
  rw [queryComment]
  refine Program.only_bind Program.only_ofExcept fun contract => ?_
  refine Program.only_bind only_boundPullRequest fun pullRequest => ?_
  cases pullRequest with
  | none => exact trivial
  | some pullRequest =>
      refine Program.only_bind Program.only_ofExcept fun issue => Program.only_bind only_issueComments fun rows => ?_
      exact Program.only_bind only_ensure fun _ => trivial

theorem only_queryMerge {root repository : String} : (queryMerge gh root repository payload).Only GitHubOp.reads := by
  rw [queryMerge]
  exact Program.only_bind Program.only_ofExcept fun head => Program.only_bind only_boundPullRequest fun row => trivial

theorem only_queryPullRequest {root repository : String} :
    (queryPullRequest gh root repository payload).Only GitHubOp.reads := by
  rw [queryPullRequest]
  refine Program.only_bind Program.only_ofExcept fun _ => Program.only_bind only_exactPullRequest fun found => ?_
  refine Program.only_bind ?_ fun _ => trivial
  cases found with
  | none => exact trivial
  | some row => exact Program.only_ofExcept

omit [Toolkit] in
theorem only_queryPush {root exactRemote : String} :
    (queryPush git root exactRemote payload).Only GitHubOp.reads := by
  rw [queryPush]
  exact Program.only_bind Program.only_ofExcept fun head => Program.only_bind only_run fun output => trivial

theorem only_bindRepository : (bind git kind payload).Only GitHubOp.reads := by
  rw [bind]
  refine Program.only_bind only_resolve fun root => Program.only_bind only_assertRepositoryBinding fun bound => ?_
  exact Program.only_bind only_ensure fun _ => trivial

theorem only_query : (query git gh kind payload).Only GitHubOp.reads := by
  rw [query]
  refine Program.only_bind only_bindRepository fun bound => ?_
  cases kind with
  | push => exact only_queryPush
  | createPullRequest => exact only_queryPullRequest
  | upsertComment => exact only_queryComment
  | merge => exact only_queryMerge
  | _ => exact trivial

/-! ### Executions -/

variable {root repository exactRemote : String}

theorem starts_executePush (hlog : Quiet log) :
    Starts git gh .push payload (executePush git root exactRemote payload) (fun _ _ => True) Refusal log := by
  rw [executePush]
  refine starts_ofExcept hlog fun head hhead => ?_
  refine starts_bind_reads only_run hlog fun observed log hlog => ?_
  refine starts_ensure hlog fun _ => ?_
  exact starts_mutation hlog (.push hhead)

/-- A pull request is queried, or created, with the admitted metadata in its body only. -/
theorem starts_queryPullRequest {kind : EffectKind} (hlog : Quiet log) :
    Starts git gh kind payload (query git gh .createPullRequest payload)
      (fun _ log => Quiet log ∧ assertCampaignPullRequestBody (payload.read "body") payload = .ok ())
      (fun _ log => Quiet log) log := by
  rw [query]
  refine Program.wp_bind.mpr (Program.wp_mono (starts_reads only_bindRepository hlog) ?_ fun _ _ => id)
  intro bound log hlog
  obtain ⟨root, exactRemote, repository⟩ := bound
  show Starts git gh kind payload (queryPullRequest gh root repository payload) _ _ log
  have hreads : (queryPullRequest gh root repository payload).Only GitHubOp.reads := only_queryPullRequest
  rw [queryPullRequest] at hreads ⊢
  generalize assertCampaignPullRequestBody (payload.read "body") payload = checked at hreads ⊢
  cases checked with
  | error exc => exact hlog
  | ok _ => exact Program.wp_mono (starts_reads hreads hlog) (fun _ _ hquiet => ⟨hquiet, rfl⟩) fun _ _ => id

theorem starts_executePullRequest (hlog : Quiet log) :
    Starts git gh .createPullRequest payload (executePullRequest git gh root repository payload) (fun _ _ => True)
      Refusal log := by
  rw [executePullRequest]
  refine Program.wp_bind.mpr (Program.wp_mono (starts_queryPullRequest hlog) ?_ fun _ _ hquiet _ => hquiet)
  intro existing log ⟨hlog, hbody⟩
  split
  · trivial
  · exact starts_mutation hlog (.create hbody)

theorem starts_executeComment (hlog : Quiet log) :
    Starts git gh .upsertComment payload (executeComment git gh root repository payload) (fun _ _ => True)
      Refusal log := by
  rw [executeComment]
  refine starts_ofExcept hlog fun contract hcontract => ?_
  obtain ⟨marker, body⟩ := contract
  refine starts_bind_reads only_boundPullRequest hlog fun pullRequest log hlog => ?_
  cases pullRequest with
  | none => exact fun _ => hlog
  | some pullRequest =>
      refine starts_ofExcept hlog fun issue _ => ?_
      refine starts_bind_reads only_query hlog fun existing log hlog => ?_
      refine starts_ensure hlog fun _ => ?_
      generalize ((existing.getD "marker_matches" (.tuple [])).items?).getD [] = found
      cases found with
      | nil => exact starts_mutation hlog (.comment hcontract)
      | cons item items =>
          refine starts_ofExcept hlog fun comment _ => ?_
          exact starts_mutation hlog (.edit hcontract)

theorem starts_executeMerge (hlog : Quiet log) :
    Starts git gh .merge payload (executeMerge git gh root repository payload) (fun _ _ => True) Refusal log := by
  rw [executeMerge]
  refine starts_bind_reads only_query hlog fun existing log hlog => ?_
  split
  · trivial
  · generalize (existing.read "pull_request").asMapping? = pullRequest
    refine starts_ofExcept hlog fun requested _ => ?_
    refine starts_bind_reads ?_ hlog fun number log hlog => ?_
    · cases pullRequest with
      | none => exact trivial
      | some row =>
          show Program.Only _ (if requested ≤ 0 then _ else _ : Task ℤ)
          split
          · exact Program.only_ofExcept
          · exact trivial
    refine starts_ensure hlog fun _ => starts_ensure hlog fun _ => ?_
    refine starts_ofExcept hlog fun _ hbody => starts_ofExcept hlog fun head hhead => ?_
    refine starts_ensure hlog fun hmethod => ?_
    exact starts_mutation hlog (.merge hbody hhead (List.contains_iff_mem.mp hmethod))

theorem starts_execute (hlog : Quiet log) :
    Starts git gh kind payload (execute git gh kind payload) (fun _ _ => True) Refusal log := by
  rw [execute]
  refine starts_bind_reads only_bindRepository hlog fun bound log hlog => ?_
  obtain ⟨root, exactRemote, repository⟩ := bound
  cases kind with
  | push => exact starts_executePush hlog
  | createPullRequest => exact starts_executePullRequest hlog
  | upsertComment => exact starts_executeComment hlog
  | merge => exact starts_executeMerge hlog
  | _ => exact fun _ => hlog

variable {history : List (Entry (List Command) GitHubOp)} {outcome : Outcome DriverException Mapping}

/-- **The mutations of an execution.**  However its commands end and wherever it is cut, an execution starts at most
one command that may change something, for the head, the branch and the body of the payload; and none when it raises
anything but `AmbiguousMutation`. -/
theorem execution_mutations (h : Exec commands (execute git gh kind payload) [] history outcome log) :
    log.countP (·.mutation) ≤ 1 ∧ (∀ c ∈ log, c.mutation = true → Commanded git gh payload kind c.argv) ∧
      ∀ exc, outcome = .raised exc → (∀ message, exc ≠ .ambiguous message) → ∀ c ∈ log, c.mutation = false := by
  have hnil : Quiet [] := fun c hc => absurd hc List.not_mem_nil
  have hstarts : Starts git gh kind payload (execute git gh kind payload) (fun _ _ => True) Refusal [] :=
    starts_execute hnil
  obtain ⟨hrun, hmeets⟩ := h.meets hstarts
  have hlawful : Lawful git gh kind payload log := hrun.invariant _ hnil.lawful fun _ hstep => hstep
  refine ⟨hlawful.once, hlawful.commanded, fun exc hraised hrefusal => ?_⟩
  subst hraised
  exact hmeets hrefusal

/-- A query starts no such command. -/
theorem query_reads (h : Exec commands (query git gh kind payload) [] history outcome log) : Quiet log := by
  have hnil : Quiet [] := fun c hc => absurd hc List.not_mem_nil
  have hwp : (query git gh kind payload).wp commands (fun _ _ log => Quiet log) (fun _ log => Quiet log)
      (fun _ log => Quiet log) [] :=
    only_query.wp (fun _ _ hreads => startedBy_reads hreads) (fun _ _ _ hquiet => hquiet) hnil
  exact (h.meets hwp).1.invariant Quiet hnil fun _ hstep => hstep

/-! ### The driver over the backend -/

open ExternalEffectDriver (DriverPool DriverEvent DriverRun executionOf executes escapeOf isRefusal Stored
  at_most_one_execution no_effect_behind_failure)

/-- How a call of the backend ends that gives this answer. -/
def outcomeOf : Except DriverException Mapping → Outcome DriverException Mapping
  | .ok result => .value result
  | .error exc => .raised exc

/-- The event calls the backend. -/
def callsBackend : DriverEvent → Bool
  | .perform _ (.execute _) _ | .torn _ (.execute _) | .perform _ (.query _) _ | .torn _ (.query _) => true
  | _ => false

/-- The commands behind an event of the driver. -/
inductive Backed (git gh : String) : DriverEvent → List Command → Prop
  | executed {i : ℕ} {record : EffectRow} {answer : Except DriverException Mapping} {history log} :
      Exec commands (execute git gh record.kind record.payload) [] history (outcomeOf answer) log →
      Backed git gh (.perform i (.execute record) answer) log
  | died {i : ℕ} {record : EffectRow} {history log} :
      Exec commands (execute git gh record.kind record.payload) [] history .crashed log →
      Backed git gh (.torn i (.execute record)) log
  | queried {i : ℕ} {record : EffectRow} {answer : Except DriverException Mapping} {history log} :
      Exec commands (query git gh record.kind record.payload) [] history (outcomeOf answer) log →
      Backed git gh (.perform i (.query record) answer) log
  | cut {i : ℕ} {record : EffectRow} {history log} :
      Exec commands (query git gh record.kind record.payload) [] history .crashed log →
      Backed git gh (.torn i (.query record)) log
  | other {e : DriverEvent} : callsBackend e = false → Backed git gh e []

/-- What an execution has behind it. -/
theorem Backed.execution {e : DriverEvent} {i : ℕ} {record : EffectRow} (h : Backed git gh e log)
    (he : executionOf e = some (i, record)) :
    log.countP (·.mutation) ≤ 1 ∧
      (∀ c ∈ log, c.mutation = true → Commanded git gh record.payload record.kind c.argv) ∧
      (escapeOf e = none → Quiet log) := by
  cases h with
  | @executed _ _ answer _ _ hexec =>
      obtain ⟨rfl, rfl⟩ := Prod.mk.inj (Option.some.inj he)
      obtain ⟨honce, hcommanded, hrefused⟩ := execution_mutations hexec
      refine ⟨honce, hcommanded, fun hescape => ?_⟩
      cases answer with
      | ok result => cases hescape
      | error exc =>
          refine hrefused exc rfl fun message hexc => ?_
          rw [hexc] at hescape
          cases hescape
  | died hexec =>
      obtain ⟨rfl, rfl⟩ := Prod.mk.inj (Option.some.inj he)
      obtain ⟨honce, hcommanded, -⟩ := execution_mutations hexec
      exact ⟨honce, hcommanded, nofun⟩
  | queried | cut => cases he
  | other =>
      exact ⟨Nat.zero_le 1, fun c hc => absurd hc List.not_mem_nil, fun _ c hc => absurd hc List.not_mem_nil⟩

/-- Everything else only reads. -/
theorem Backed.quiet {e : DriverEvent} (h : Backed git gh e log) (he : executionOf e = none) : Quiet log := by
  cases h with
  | executed | died => cases he
  | queried hexec => exact query_reads hexec
  | cut hexec => exact query_reads hexec
  | other => exact fun c hc => absurd hc List.not_mem_nil

/-- The commands behind the executions of one operation. -/
def commandsOf (operation : String) (events : List DriverEvent) (logs : List (List Command)) : List Command :=
  (events.zip logs).flatMap fun p => if executes operation p.1 then p.2 else []

variable {operation : String} {events : List DriverEvent} {logs : List (List Command)}

omit [Toolkit] in
theorem mem_commandsOf {c : Command} :
    c ∈ commandsOf operation events logs ↔
      ∃ e log, (e, log) ∈ events.zip logs ∧ executes operation e = true ∧ c ∈ log := by
  rw [commandsOf, List.mem_flatMap]
  constructor
  · rintro ⟨⟨e, log⟩, hmem, hc⟩
    split at hc
    · next he => exact ⟨e, log, hmem, he, hc⟩
    · exact absurd hc List.not_mem_nil
  · rintro ⟨e, log, hmem, he, hc⟩
    exact ⟨(e, log), hmem, by rw [if_pos he]; exact hc⟩

/-- As many mutations as executions, at most. -/
theorem countP_commandsOf_le (h : List.Forall₂ (Backed git gh) events logs) :
    (commandsOf operation events logs).countP (·.mutation) ≤ events.countP (executes operation) := by
  induction h with
  | nil => exact le_refl 0
  | @cons e log events logs hbacked _ ih =>
      rw [commandsOf, List.zip_cons_cons, List.flatMap_cons, List.countP_append, List.countP_cons]
      rw [commandsOf] at ih
      by_cases he : executes operation e = true
      · obtain ⟨i, record, hexecution, -⟩ := ExternalEffectDriver.executes_iff.mp he
        have honce := (hbacked.execution hexecution).1
        rw [if_pos he, if_pos he, Nat.add_comm]
        exact Nat.add_le_add ih honce
      · rw [if_neg he, if_neg he]
        simpa using ih

section System

variable {trace : List (Entry DriverPool DriverEvent)} {s : DriverPool}

/-- **One mutation for one operation.**  Whatever the driver processes do together, in any order and with any deaths,
behind one operation they start at most one command that may change something outside, and it is the command for the
kind and the payload its row was prepared with; and nothing but the executions starts such a command. -/
theorem one_mutation (h : DriverRun trace s) (hlogs : List.Forall₂ (Backed git gh) (trace.map (·.label)) logs) :
    (∀ operation, (commandsOf operation (trace.map (·.label)) logs).countP (·.mutation) ≤ 1) ∧
      (∀ operation, ∀ c ∈ commandsOf operation (trace.map (·.label)) logs, c.mutation = true →
        ∃ row, s.world.outbox.get? operation = some row ∧ Commanded git gh row.payload row.kind c.argv) ∧
      ∀ e log, (e, log) ∈ (trace.map (·.label)).zip logs → ∀ c ∈ log, c.mutation = true →
        ∃ operation, executes operation e = true := by
  obtain ⟨k, -, hsafe⟩ := h.safe
  refine ⟨fun operation => ?_, fun operation c hc hmutation => ?_, fun e log hmem c hc hmutation => ?_⟩
  · exact (countP_commandsOf_le hlogs).trans (hsafe.once operation)
  · obtain ⟨e, log, hmem, he, hstarted⟩ := mem_commandsOf.mp hc
    obtain ⟨i, record, hexecution, rfl⟩ := ExternalEffectDriver.executes_iff.mp he
    have hbacked := List.forall₂_zip hlogs hmem
    have hcommanded := (hbacked.execution hexecution).2.1 c hstarted hmutation
    obtain ⟨earlier, later, hsplit⟩ := List.append_of_mem (List.of_mem_zip hmem).1
    obtain ⟨⟨row, hrow, hkind, hpayload⟩, -⟩ := hsafe.owned _ _ _ _ _ hsplit hexecution
    exact ⟨row, hrow, by rwa [hkind, hpayload]⟩
  · cases hexecution : executionOf e with
    | none =>
        have hquiet := (List.forall₂_zip hlogs hmem).quiet hexecution c hc
        rw [hmutation] at hquiet
        cases hquiet
    | some execution =>
        exact ⟨execution.2.operationId, ExternalEffectDriver.executes_iff.mpr ⟨execution.1, execution.2, hexecution, rfl⟩⟩

/-- **No mutation behind a failure.**  When the row of an operation ever reads `FAILED` or `CANCELLED`, no process
has started, or ever starts, a command that may change something for it. -/
theorem no_mutation_behind_failure (h : DriverRun trace s)
    (hlogs : List.Forall₂ (Backed git gh) (trace.map (·.label)) logs) {e : Entry DriverPool DriverEvent}
    (he : e ∈ trace) {row : EffectRow} (hrow : e.after.world.outbox.get? operation = some row)
    (hstate : row.state = .failed ∨ row.state = .cancelled) :
    ∀ c ∈ commandsOf operation (trace.map (·.label)) logs, c.mutation = false := by
  intro c hc
  obtain ⟨event, log, hmem, hexecutes, hstarted⟩ := mem_commandsOf.mp hc
  obtain ⟨i, record, hexecution, rfl⟩ := ExternalEffectDriver.executes_iff.mp hexecutes
  obtain ⟨entry, hentry, rfl⟩ := List.mem_map.mp (List.of_mem_zip hmem).1
  have hescape := no_effect_behind_failure h he hrow hstate entry hentry
  refine ((List.forall₂_zip hlogs hmem).execution hexecution).2.2 ?_ c hstarted
  cases hescaped : escapeOf entry.label with
  | none => rfl
  | some other =>
      obtain ⟨_, record', hexecution', rfl⟩ := ExternalEffectDriver.executes_iff.mp
        (ExternalEffectDriver.executed_of_escaped hescaped)
      rw [hexecution] at hexecution'
      obtain ⟨rfl, rfl⟩ := Prod.mk.inj (Option.some.inj hexecution')
      exact absurd hescaped hescape

end System

end Backend

end CodingOS.Effects.GitHubBackend

/-! ### A push, and a publication without a remote -/

namespace CodingOS.Effects.GitHubBackend.Sample

open CodingOS.Python CodingOS.Campaign CodingOS.Campaign.Sample CodingOS.Store Systems
open ExternalEffectDriver (DriverException DriverOp DriverAnswer DriverPool DriverEvent DriverRun driverMachine
  executionOf)

/-- The parameters, for one remote. -/
scoped instance toolkit : Toolkit where
  urlsplit _ := .ok ⟨"https", "h", "/o/n", "", "", some "h"⟩
  url2pathname path := .ok path
  isAbsolute _ := true
  asUri path := .ok path
  normcase path := path
  jsonLoads _ := .ok none
  normalizeRemoteUrl url := .ok (.ok url)
  validateBody _ _ _ _ _ := .ok []

def head : String := "aaaaaaaaaaaaaaaaaaaaaaaaaaaaaaaaaaaaaaaa"

def payload : Mapping :=
  [("root", .str "/r"), ("repository_remote", .str "https://h/o/n"), ("head", .str head), ("branch", .str "b")]

/-- What the commands print; the remote rejects the push. -/
def answer : (op : GitHubOp) → GitHubAnswer op
  | .resolve path => .ok path
  | .isDir _ => true
  | .run argv _ mutation =>
      if mutation then .completed 1 "" "rejected"
      else if argv.contains "--show-toplevel" then .completed 0 "/r" ""
      else if argv.contains "HEAD" then .completed 0 head ""
      else .completed 0 "https://h/o/n" ""

def world (op : GitHubOp) (log : List Command) : GitHubAnswer op × List Command :=
  (answer op, log ++ startedBy op (answer op))

def pushed : List (Entry (List Command) GitHubOp) × Outcome DriverException Mapping × List Command :=
  (execute "git" "gh" .push payload).compute world 20 []

theorem execution_mutations_sample :
    pushed.2.2.countP (·.mutation) = 1 ∧ pushed.2.2.countP (·.mutation) ≤ 1 ∧
      (∀ c ∈ pushed.2.2, c.mutation = true → Commanded "git" "gh" payload .push c.argv) ∧
      ∀ exc, pushed.2.1 = .raised exc → (∀ message, exc ≠ .ambiguous message) →
        ∀ c ∈ pushed.2.2, c.mutation = false :=
  ⟨by decide +kernel, execution_mutations (Program.compute_exec (fun _ _ => rfl) 20 _ [])⟩

/-- What the backend raises without a remote. -/
def unbound : DriverException := .conflict "repository_remote is required for every GitHub effect"

theorem query_unbound {kind : EffectKind} {payload : Mapping}
    (h : strip (textOf payload "repository_remote" "") = "") :
    Exec commands (query "git" "gh" kind payload) [] [⟨[], .resolve (textOf payload "root" ""), []⟩]
      (outcomeOf (.error unbound)) [] := by
  rw [query, bind, resolve]
  have hroot : commands.step (.resolve (textOf payload "root" "")) [] (.ok "") [] := rfl
  refine Exec.call hroot ?_
  show Exec commands (((assertRepositoryBinding "git" "" payload >>= _) : Task _) >>= _) _ _ _ _
  rw [assertRepositoryBinding, h, ensure]
  exact .raise _ _

/-- The store of the driver's sample over this backend. -/
def perform : (op : DriverOp) → Db → DriverAnswer op × Db
  | .query _, db => (.error unbound, db)
  | op, db => ExternalEffectDriver.Sample.perform (.error unbound) op db

theorem perform_step (op : DriverOp) (db : Db) : driverMachine.step op db (perform op db).1 (perform op db).2 := by
  cases op with
  | query => exact .inl rfl
  | _ => exact @ExternalEffectDriver.Sample.perform_step (.error unbound) _ db

/-- What comes of a publication that names no remote. -/
def unboundFrom (history : List (Entry Db Transaction)) (db : Db) : List (Entry DriverPool DriverEvent) × DriverPool :=
  let start := ExternalEffectDriver.Sample.started history db
  let rest := start.2.advance perform 0 11
  (start.1 ++ rest.1, rest.2)

theorem unboundFrom_run {history : List (Entry Db Transaction)} {db : Db}
    (h : Run ExternalEffectDriver.surroundings {} history db) :
    DriverRun (unboundFrom history db).1 (unboundFrom history db).2 :=
  Pool.advance_run perform_step (ExternalEffectDriver.Sample.started_run h) rfl

def unboundRun : List (Entry DriverPool DriverEvent) × DriverPool :=
  unboundFrom Store.Sample.storeRun.1 Store.Sample.storeRun.2

theorem unboundRun_run : DriverRun unboundRun.1 unboundRun.2 :=
  unboundFrom_run ExternalEffectDriver.Sample.storeRun_surroundings

/-- The event executes nothing, and queries a row without a remote only. -/
def isUnbound : DriverEvent → Bool
  | .perform _ (.execute _) _ | .torn _ _ => false
  | .perform _ (.query record) _ => strip (textOf record.payload "repository_remote" "") == ""
  | _ => true

theorem unboundRun_ends :
    unboundRun.1.all (fun e => isUnbound e.label) ∧
      unboundRun.1.any (fun e => (e.after.world.outbox.get? "o3").any (·.state == .failed)) := by
  decide +kernel

theorem backed_of_unbound {op : DriverOp} {db : Db} {i : ℕ} (h : isUnbound (.perform i op (perform op db).1) = true) :
    Backed "git" "gh" (.perform i op (perform op db).1) [] := by
  cases op with
  | query record =>
      simp only [isUnbound, beq_iff_eq] at h
      exact .queried (query_unbound h)
  | execute record => cases h
  | _ => exact .other rfl

/-- The backend starts no command at all. -/
def unboundLogs : List (List Command) := unboundRun.1.map fun _ => []

theorem started_backed {history : List (Entry Db Transaction)} {db : Db}
    {e : Entry DriverPool DriverEvent} (he : e ∈ (ExternalEffectDriver.Sample.started history db).1) :
    Backed "git" "gh" e.label [] := by
  simp only [ExternalEffectDriver.Sample.started, List.mem_append, List.mem_map, List.mem_singleton] at he
  rcases he with ⟨_, -, rfl⟩ | rfl
  · exact .other rfl
  · exact .other rfl

theorem unboundFrom_backed {history : List (Entry Db Transaction)} {db : Db}
    (hends : (unboundFrom history db).1.all (fun e => isUnbound e.label) = true)
    {e : Entry DriverPool DriverEvent} (he : e ∈ (unboundFrom history db).1) : Backed "git" "gh" e.label [] := by
  have hunbound := List.all_eq_true.mp hends e he
  simp only [unboundFrom, List.mem_append] at he
  rcases he with hmem | hmem
  · exact started_backed hmem
  · obtain ⟨op, w, hlabel⟩ := Pool.advance_label hmem
    rw [hlabel] at hunbound ⊢
    exact backed_of_unbound hunbound

theorem unboundRun_backed :
    List.Forall₂ (Backed "git" "gh") (unboundRun.1.map (·.label)) unboundLogs := by
  rw [unboundLogs, List.forall₂_map_left_iff, List.forall₂_map_right_iff, List.forall₂_same]
  exact fun e he => unboundFrom_backed unboundRun_ends.1 he

theorem one_mutation_sample :
    (∀ operation, (commandsOf operation (unboundRun.1.map (·.label)) unboundLogs).countP (·.mutation) ≤ 1) ∧
      (∀ operation, ∀ c ∈ commandsOf operation (unboundRun.1.map (·.label)) unboundLogs, c.mutation = true →
        ∃ row, unboundRun.2.world.outbox.get? operation = some row ∧
          Commanded "git" "gh" row.payload row.kind c.argv) ∧
      ∀ e log, (e, log) ∈ (unboundRun.1.map (·.label)).zip unboundLogs → ∀ c ∈ log, c.mutation = true →
        ∃ operation, ExternalEffectDriver.executes operation e = true :=
  one_mutation unboundRun_run unboundRun_backed

theorem no_mutation_behind_failure_sample :
    ∃ e ∈ unboundRun.1, (∃ row, e.after.world.outbox.get? "o3" = some row ∧ row.state = .failed) ∧
      ∀ c ∈ commandsOf "o3" (unboundRun.1.map (·.label)) unboundLogs, c.mutation = false := by
  obtain ⟨e, he, hfailed⟩ := List.any_eq_true.mp unboundRun_ends.2
  obtain ⟨row, hrow, hstate⟩ := (Option.any_eq_true _ _).mp hfailed
  have hstate := beq_iff_eq.mp hstate
  exact ⟨e, he, ⟨row, hrow, hstate⟩,
    no_mutation_behind_failure unboundRun_run unboundRun_backed he hrow (.inl hstate)⟩

end CodingOS.Effects.GitHubBackend.Sample
