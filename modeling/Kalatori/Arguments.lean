import Kalatori.Definitions
import Kalatori.Lib.Scale

/-!
# The seeds in the environment

The daemon is given its seed, and the seeds that it had before, in variables of its
environment.  `SeedEnvVars::parse` goes through all variables, in whatever order
the system lists them; it takes the seeds out of the environment, and stops at
the first that is no text.

The order makes a difference only when it stops.  If every seed is text and the
current one is there, then the result is what the environment says, in any
order, and no seed is left in it.

* `SeedEnvVars.parse`: the function.
* `SeedEnvVars.ReadFrom`, `SeedEnvError.Blames`: what a result and an error say.
* `SeedEnvVars.Visited`, `SeedEnvVars.ends_visit`: the loop, one variable after the other.
* `SeedEnvVars.Parsed`, `seedsRead`: results and errors are right, in any order of the variables.
-/

namespace Kalatori

open Scale Codec

/-! ## The function -/

/-- `OsString`, by its encoded bytes. -/
abbrev OsString := Bytes

/-- A variable, with its value. -/
abbrev EnvVar := Σ _ : OsString, OsString

/-- The variables of the process. -/
abbrev Environment := HashMap OsString OsString

def SEED : String := "KALATORI_SEED"

def OLD_SEED : String := "KALATORI_OLD_SEED_"

inductive SeedEnvError
  | invalidUnicodeOldSeedKey
  | invalidUnicodeValue (name : String)
  | seedNotPresent
  deriving DecidableEq

structure SeedEnvVars where
  seed : String
  old_seeds : HashMap String String

/-- `str::from_utf8`, `OsString::into_string` and `OsStr::to_str` -/
def fromUtf8 (bytes : Bytes) : Option String := String.fromUTF8? ⟨bytes.toArray⟩

/-- `strip_prefix` -/
def stripPrefix (pre bytes : Bytes) : Option Bytes :=
  if pre.isPrefixOf bytes then some (bytes.drop pre.length) else none

/-- Computations that may take variables out of the environment. -/
abbrev Parsing := ExceptT SeedEnvError (StateM Environment)

namespace Parsing

variable {α β : Type}

/-- The result and the environment that a computation leaves. -/
def runOn (p : Parsing α) (env : Environment) : Except SeedEnvError α × Environment :=
  (ExceptT.run p).run env

@[simp] theorem runOn_pure (a : α) (env : Environment) :
    (pure a : Parsing α).runOn env = (.ok a, env) :=
  rfl

@[simp] theorem runOn_throw (e : SeedEnvError) (env : Environment) :
    (throw e : Parsing α).runOn env = (.error e, env) :=
  rfl

theorem runOn_bind (p : Parsing α) (f : α → Parsing β) (env : Environment) :
    (p >>= f).runOn env =
      match p.runOn env with
      | (.ok a, env') => (f a).runOn env'
      | (.error e, env') => (.error e, env') := by
  simp only [runOn, ExceptT.run_bind, StateT.run_bind]
  change (match (ExceptT.run p).run env with | (r, o) => _) = _
  rcases (ExceptT.run p).run env with ⟨r | a, env'⟩ <;> rfl

/-- `env::remove_var` -/
def removeVar (raw_key : OsString) : Parsing Unit := modifyThe Environment (·.erase raw_key)

@[simp] theorem runOn_removeVar_bind (raw_key : OsString) (f : Unit → Parsing α)
    (env : Environment) :
    (removeVar raw_key >>= f).runOn env = (f ()).runOn (env.erase raw_key) :=
  rfl

end Parsing

/-- What the loop has found so far: the seed, and the old seeds. -/
abbrev FoundSeeds := Option String × HashMap String String

/-- One round of the loop over the variables. -/
def SeedEnvVars.visit (found : FoundSeeds) (entry : EnvVar) :
    Parsing FoundSeeds :=
  if entry.1 = rawBytes SEED then do
    Parsing.removeVar entry.1
    match fromUtf8 entry.2 with
    | some seed => return (some seed, found.2)
    | none => throw (.invalidUnicodeValue SEED)
  else
    match stripPrefix (rawBytes OLD_SEED) entry.1 with
    | some stripped_raw_key => do
      Parsing.removeVar entry.1
      match fromUtf8 stripped_raw_key with
      | none => throw .invalidUnicodeOldSeedKey
      | some key =>
        match fromUtf8 entry.2 with
        | none => throw (.invalidUnicodeValue (OLD_SEED ++ key))
        | some value => return (found.1, found.2.insert key value)
    | none => return found

/-- `SeedEnvVars::parse`, for the variables as they are listed. -/
def SeedEnvVars.parse (vars : List EnvVar) : Parsing SeedEnvVars := do
  let found ← vars.foldlM visit (none, ∅)
  match found.1 with
  | some seed => return ⟨seed, found.2⟩
  | none => throw .seedNotPresent

/-! ## What it finds -/

theorem fromUtf8_eq_some {bytes : Bytes} {s : String} :
    fromUtf8 bytes = some s ↔ bytes = rawBytes s := by
  constructor
  · intro h
    unfold fromUtf8 String.fromUTF8? at h
    split_ifs at h with hvalid
    obtain rfl := Option.some.inj h
    rfl
  · rintro rfl
    exact fromUTF8?_rawBytes s

theorem fromUtf8_eq_none {bytes : Bytes} : fromUtf8 bytes = none ↔ ∀ s, bytes ≠ rawBytes s := by
  rw [Option.eq_none_iff_forall_ne_some]
  exact forall_congr' fun s => fromUtf8_eq_some.not

theorem rawBytes_injective {s t : String} (h : rawBytes s = rawBytes t) : s = t :=
  Option.some.inj ((fromUtf8_eq_some.mpr rfl).symm.trans (fromUtf8_eq_some.mpr h))

theorem stripPrefix_eq_some {pre bytes rest : Bytes} :
    stripPrefix pre bytes = some rest ↔ bytes = pre ++ rest := by
  unfold stripPrefix
  constructor
  · intro h
    split_ifs at h with hpre
    obtain ⟨rest', rfl⟩ := List.isPrefixOf_iff_prefix.mp hpre
    rw [← Option.some.inj h, List.drop_left]
  · rintro rfl
    rw [if_pos (List.isPrefixOf_iff_prefix.mpr (List.prefix_append pre rest)), List.drop_left]

/-- The name of the current seed is none of an old one. -/
theorem seed_ne_oldSeed (suffix : Bytes) : rawBytes SEED ≠ rawBytes OLD_SEED ++ suffix := by
  intro h
  have htake : (rawBytes SEED).take 10 = (rawBytes OLD_SEED).take 10 := by
    rw [h]
    exact List.take_append_of_le_length (by decide +kernel)
  exact absurd htake (by decide +kernel)

/-- The variables that hold seeds. -/
inductive IsSecret : OsString → Prop
  | seed : IsSecret (rawBytes SEED)
  | oldSeed (suffix : Bytes) : IsSecret (rawBytes OLD_SEED ++ suffix)

/-- **What a result says of the environment.** -/
structure SeedEnvVars.ReadFrom (env : Environment) (r : SeedEnvVars) : Prop where
  seed : env.lookup (rawBytes SEED) = some (rawBytes r.seed)
  old_seeds : ∀ key value, r.old_seeds.lookup key = some value ↔
    env.lookup (rawBytes OLD_SEED ++ rawBytes key) = some (rawBytes value)
  /-- No old seed is left out. -/
  text : ∀ suffix raw_value, env.lookup (rawBytes OLD_SEED ++ suffix) = some raw_value →
    ∃ key value, suffix = rawBytes key ∧ raw_value = rawBytes value

/-- **What an error says of the environment.** -/
inductive SeedEnvError.Blames (env : Environment) : SeedEnvError → Prop
  | key (suffix raw_value : Bytes) (hl : env.lookup (rawBytes OLD_SEED ++ suffix) = some raw_value)
      (h : ∀ key, suffix ≠ rawBytes key) : Blames env .invalidUnicodeOldSeedKey
  | oldValue (key : String) (raw_value : Bytes)
      (hl : env.lookup (rawBytes OLD_SEED ++ rawBytes key) = some raw_value)
      (h : ∀ value, raw_value ≠ rawBytes value) :
      Blames env (.invalidUnicodeValue (OLD_SEED ++ key))
  | value (raw_value : Bytes) (hl : env.lookup (rawBytes SEED) = some raw_value)
      (h : ∀ value, raw_value ≠ rawBytes value) : Blames env (.invalidUnicodeValue SEED)
  | absent (hl : env.lookup (rawBytes SEED) = none) : Blames env .seedNotPresent

/-! ## The loop -/

namespace SeedEnvVars

/-- The variables that were visited are dealt with, and the others are as they were. -/
structure Visited (env : Environment) (visited : List EnvVar)
    (env' : Environment) (found : FoundSeeds) : Prop where
  cleared : ∀ k, IsSecret k → k ∈ visited.map Sigma.fst → env'.lookup k = none
  kept : ∀ k, ¬(IsSecret k ∧ k ∈ visited.map Sigma.fst) → env'.lookup k = env.lookup k
  seed : ∀ s, found.1 = some s ↔ ⟨rawBytes SEED, rawBytes s⟩ ∈ visited
  old_seeds : ∀ key value, found.2.lookup key = some value ↔
    ⟨rawBytes OLD_SEED ++ rawBytes key, rawBytes value⟩ ∈ visited
  text : ∀ suffix raw_value, ⟨rawBytes OLD_SEED ++ suffix, raw_value⟩ ∈ visited →
    ∃ key value, suffix = rawBytes key ∧ raw_value = rawBytes value
  seed_text : ∀ raw_value, ⟨rawBytes SEED, raw_value⟩ ∈ visited → ∃ s, raw_value = rawBytes s

/-- Nothing was done to the environment, but for seeds that were taken out of it. -/
def OnlySeedsTaken (env env' : Environment) : Prop :=
  ∀ k, env'.lookup k = env.lookup k ∨ IsSecret k ∧ env'.lookup k = none

/-- How the loop can end, after these variables. -/
def Ends (env : Environment) (visited : List EnvVar) :
    Except SeedEnvError FoundSeeds × Environment → Prop
  | (.ok found, env') => Visited env visited env' found
  | (.error e, env') => e.Blames env ∧ OnlySeedsTaken env env'

section Loop

variable {env env' : Environment} {visited : List EnvVar} {found : FoundSeeds}
  {raw_key raw_value : OsString}

theorem visited_nil (env : Environment) : Visited env [] env (none, ∅) where
  cleared := fun _ _ hmem => absurd hmem List.not_mem_nil
  kept := fun _ _ => rfl
  seed := fun s => iff_of_false (fun h => by cases h) List.not_mem_nil
  old_seeds := fun key value =>
    iff_of_false (fun h => by cases h.symm.trans (AList.lookup_empty key)) List.not_mem_nil
  text := fun _ _ hmem => absurd hmem List.not_mem_nil
  seed_text := fun _ hmem => absurd hmem List.not_mem_nil

theorem Visited.onlySeedsTaken (h : Visited env visited env' found) : OnlySeedsTaken env env' := by
  intro k
  by_cases hk : IsSecret k ∧ k ∈ visited.map Sigma.fst
  · exact .inr ⟨hk.1, h.cleared k hk.1 hk.2⟩
  · exact .inl (h.kept k hk)

/-- A seed is taken out of the environment. -/
theorem OnlySeedsTaken.erase (h : OnlySeedsTaken env env') (hk : IsSecret raw_key) :
    OnlySeedsTaken env (env'.erase raw_key) := by
  intro k
  by_cases hne : k = raw_key
  · rw [hne]
    exact .inr ⟨hk, AList.lookup_erase _ _⟩
  · rw [AList.lookup_erase_ne hne]
    exact h k

theorem mem_map_fst_append {k : OsString} :
    k ∈ (visited ++ [(⟨raw_key, raw_value⟩ : EnvVar)]).map Sigma.fst ↔
      k ∈ visited.map Sigma.fst ∨ k = raw_key := by
  rw [List.map_append, List.mem_append, List.map_singleton, List.mem_singleton]

theorem Visited.cleared_erase (h : Visited env visited env' found) (k : OsString)
    (hk : IsSecret k) (hmem : k ∈ (visited ++ [(⟨raw_key, raw_value⟩ : EnvVar)]).map Sigma.fst) :
    (env'.erase raw_key).lookup k = none := by
  by_cases hne : k = raw_key
  · rw [hne]
    exact AList.lookup_erase _ _
  · rw [AList.lookup_erase_ne hne]
    exact h.cleared k hk ((mem_map_fst_append.mp hmem).resolve_right hne)

theorem Visited.kept_erase (h : Visited env visited env' found) (hsecret : IsSecret raw_key)
    (k : OsString)
    (hk : ¬(IsSecret k ∧ k ∈ (visited ++ [(⟨raw_key, raw_value⟩ : EnvVar)]).map Sigma.fst)) :
    (env'.erase raw_key).lookup k = env.lookup k := by
  have hne : k ≠ raw_key := by
    rintro rfl
    exact hk ⟨hsecret, mem_map_fst_append.mpr (.inr rfl)⟩
  rw [AList.lookup_erase_ne hne]
  exact h.kept k fun ⟨hs, hmem⟩ => hk ⟨hs, mem_map_fst_append.mpr (.inl hmem)⟩

theorem mem_append_entry {k v : OsString} :
    (⟨k, v⟩ : EnvVar) ∈ visited ++ [⟨raw_key, raw_value⟩] ↔
      ⟨k, v⟩ ∈ visited ∨ k = raw_key ∧ v = raw_value := by
  rw [List.mem_append, List.mem_singleton, Sigma.mk.injEq, heq_eq_eq]

/-- A variable is listed once. -/
theorem not_mem_of_fresh (hfresh : raw_key ∉ visited.map Sigma.fst) (v : OsString) :
    (⟨raw_key, v⟩ : EnvVar) ∉ visited :=
  fun hmem => hfresh (List.mem_map_of_mem hmem)

/-- The current seed. -/
theorem Visited.seedFound (h : Visited env visited env' found) {s : String}
    (hfresh : rawBytes SEED ∉ visited.map Sigma.fst) :
    Visited env (visited ++ [⟨rawBytes SEED, rawBytes s⟩]) (env'.erase (rawBytes SEED))
      (some s, found.2) where
  cleared := h.cleared_erase
  kept := h.kept_erase .seed
  seed := by
    intro s'
    rw [mem_append_entry, or_iff_right (not_mem_of_fresh hfresh _), Option.some.injEq]
    constructor
    · rintro rfl
      exact ⟨rfl, rfl⟩
    · exact fun h => (rawBytes_injective h.2).symm
  old_seeds := by
    intro key value
    rw [mem_append_entry, or_iff_left fun h => seed_ne_oldSeed _ h.1.symm]
    exact h.old_seeds key value
  text := by
    intro suffix raw_value hmem
    rcases mem_append_entry.mp hmem with hmem | ⟨heq, -⟩
    · exact h.text suffix raw_value hmem
    · exact absurd heq.symm (seed_ne_oldSeed suffix)
  seed_text := by
    intro raw_value hmem
    rcases mem_append_entry.mp hmem with hmem | ⟨-, rfl⟩
    · exact h.seed_text raw_value hmem
    · exact ⟨s, rfl⟩

/-- An old seed. -/
theorem Visited.oldSeedFound (h : Visited env visited env' found) {key value : String}
    (hfresh : rawBytes OLD_SEED ++ rawBytes key ∉ visited.map Sigma.fst) :
    Visited env (visited ++ [⟨rawBytes OLD_SEED ++ rawBytes key, rawBytes value⟩])
      (env'.erase (rawBytes OLD_SEED ++ rawBytes key)) (found.1, found.2.insert key value) where
  cleared := h.cleared_erase
  kept := h.kept_erase (.oldSeed _)
  seed := by
    intro s
    rw [mem_append_entry, or_iff_left fun h => seed_ne_oldSeed _ h.1]
    exact h.seed s
  old_seeds := by
    intro key' value'
    rw [mem_append_entry]
    by_cases hkey : key' = key
    · rw [hkey, AList.lookup_insert, or_iff_right (not_mem_of_fresh hfresh _), Option.some.injEq]
      constructor
      · rintro rfl
        exact ⟨rfl, rfl⟩
      · exact fun h => (rawBytes_injective h.2).symm
    · rw [AList.lookup_insert_ne hkey, h.old_seeds key' value', or_iff_left]
      exact fun h => hkey (rawBytes_injective (List.append_cancel_left h.1))
  text := by
    intro suffix raw_value hmem
    rcases mem_append_entry.mp hmem with hmem | ⟨heq, rfl⟩
    · exact h.text suffix raw_value hmem
    · exact ⟨key, value, List.append_cancel_left heq, rfl⟩
  seed_text := by
    intro raw_value hmem
    rcases mem_append_entry.mp hmem with hmem | ⟨heq, -⟩
    · exact h.seed_text raw_value hmem
    · exact absurd heq (seed_ne_oldSeed _)

/-- A variable that is no seed. -/
theorem Visited.passed (h : Visited env visited env' found) (hne : raw_key ≠ rawBytes SEED)
    (hstrip : ∀ suffix, raw_key ≠ rawBytes OLD_SEED ++ suffix) :
    Visited env (visited ++ [⟨raw_key, raw_value⟩]) env' found where
  cleared := by
    intro k hk hmem
    rcases mem_map_fst_append.mp hmem with hmem | rfl
    · exact h.cleared k hk hmem
    · cases hk with
      | seed => exact absurd rfl hne
      | oldSeed suffix => exact absurd rfl (hstrip suffix)
  kept := fun k hk =>
    h.kept k fun ⟨hs, hmem⟩ => hk ⟨hs, mem_map_fst_append.mpr (.inl hmem)⟩
  seed := by
    intro s
    rw [mem_append_entry, or_iff_left fun h => hne h.1.symm]
    exact h.seed s
  old_seeds := by
    intro key value
    rw [mem_append_entry, or_iff_left fun h => hstrip _ h.1.symm]
    exact h.old_seeds key value
  text := by
    intro suffix raw_value hmem
    rcases mem_append_entry.mp hmem with hmem | ⟨heq, -⟩
    · exact h.text suffix raw_value hmem
    · exact absurd heq.symm (hstrip suffix)
  seed_text := by
    intro raw_value hmem
    rcases mem_append_entry.mp hmem with hmem | ⟨heq, -⟩
    · exact h.seed_text raw_value hmem
    · exact absurd heq.symm hne

/-- **One round of the loop.** -/
theorem ends_visit (h : Visited env visited env' found)
    (hfresh : raw_key ∉ visited.map Sigma.fst) (hl : env.lookup raw_key = some raw_value) :
    Ends env (visited ++ [⟨raw_key, raw_value⟩])
      ((SeedEnvVars.visit found ⟨raw_key, raw_value⟩).runOn env') := by
  have htaken := h.onlySeedsTaken
  unfold SeedEnvVars.visit
  split_ifs with hseed
  · obtain rfl : raw_key = rawBytes SEED := hseed
    rw [Parsing.runOn_removeVar_bind]
    cases hvalue : fromUtf8 raw_value with
    | none => exact ⟨.value raw_value hl (fromUtf8_eq_none.mp hvalue), htaken.erase .seed⟩
    | some s =>
      obtain rfl := fromUtf8_eq_some.mp hvalue
      exact h.seedFound hfresh
  · cases hstrip : stripPrefix (rawBytes OLD_SEED) raw_key with
    | none =>
      refine h.passed hseed fun suffix heq => ?_
      cases hstrip.symm.trans (stripPrefix_eq_some.mpr heq)
    | some suffix =>
      obtain rfl := stripPrefix_eq_some.mp hstrip
      simp only [Parsing.runOn_removeVar_bind]
      cases hkey : fromUtf8 suffix with
      | none =>
        exact ⟨.key suffix raw_value hl (fromUtf8_eq_none.mp hkey), htaken.erase (.oldSeed _)⟩
      | some key =>
        obtain rfl := fromUtf8_eq_some.mp hkey
        cases hvalue : fromUtf8 raw_value with
        | none =>
          exact ⟨.oldValue key raw_value hl (fromUtf8_eq_none.mp hvalue),
            htaken.erase (.oldSeed _)⟩
        | some value =>
          obtain rfl := fromUtf8_eq_some.mp hvalue
          exact h.oldSeedFound hfresh

/-- The loop over the rest of the variables. -/
theorem ends_foldlM {rest : List EnvVar} (h : Visited env visited env' found)
    (hnodup : ((visited ++ rest).map Sigma.fst).Nodup)
    (hl : ∀ entry ∈ rest, env.lookup entry.1 = some entry.2) :
    Ends env (visited ++ rest) ((rest.foldlM SeedEnvVars.visit found).runOn env') := by
  induction rest generalizing visited env' found with
  | nil =>
    rw [List.append_nil]
    exact h
  | cons entry rest ih =>
    obtain ⟨raw_key, raw_value⟩ := entry
    rw [List.append_cons] at hnodup ⊢
    have hfresh : raw_key ∉ visited.map Sigma.fst := by
      intro hmem
      rw [List.map_append, List.map_append, List.map_singleton] at hnodup
      have hvisited := hnodup.of_append_left
      exact (List.disjoint_of_nodup_append hvisited hmem) (List.mem_singleton_self raw_key)
    have hround := ends_visit h hfresh (hl _ List.mem_cons_self)
    rw [List.foldlM_cons, Parsing.runOn_bind]
    generalize (SeedEnvVars.visit found ⟨raw_key, raw_value⟩).runOn env' = r at hround
    obtain ⟨e | found', env''⟩ := r
    · exact hround
    · exact ih hround hnodup fun entry hmem => hl entry (List.mem_cons_of_mem _ hmem)

end Loop

/-! ## The result -/

/-- **What is right**: a result is the environment's and leaves no seed in it, an error names what
is wrong with it, and no other variable is touched. -/
def Parsed (env : Environment) : Except SeedEnvError SeedEnvVars × Environment → Prop
  | (.ok r, env') => r.ReadFrom env ∧ ∀ k, (IsSecret k → env'.lookup k = none) ∧
      (¬IsSecret k → env'.lookup k = env.lookup k)
  | (.error e, env') => e.Blames env ∧ OnlySeedsTaken env env'

/-- There is nothing to blame an environment for from which the seeds can be read. -/
theorem ReadFrom.not_blames {env : Environment} {r : SeedEnvVars}
    (h : r.ReadFrom env) (e : SeedEnvError) : ¬e.Blames env := by
  intro hb
  cases hb with
  | key suffix raw_value hl hne =>
    obtain ⟨key, -, rfl, -⟩ := h.text suffix raw_value hl
    exact hne key rfl
  | oldValue key raw_value hl hne =>
    obtain ⟨-, value, -, rfl⟩ := h.text _ raw_value hl
    exact hne value rfl
  | value raw_value hl hne => exact hne r.seed (Option.some.inj (hl.symm.trans h.seed))
  | absent hl => cases hl.symm.trans h.seed

section Result

variable {env env' : Environment} {vars : List EnvVar} {found : FoundSeeds}

theorem mem_vars_iff (hvars : vars.Perm env.entries) {k v : OsString} :
    (⟨k, v⟩ : EnvVar) ∈ vars ↔ env.lookup k = some v :=
  hvars.mem_iff.trans AList.mem_lookup_iff.symm

/-- When all variables have been visited, what was found is the environment's. -/
theorem Visited.parsed (h : Visited env vars env' found) (hvars : vars.Perm env.entries)
    {seed : String} (hseed : found.1 = some seed) : Parsed env (.ok ⟨seed, found.2⟩, env') := by
  have hall : ∀ k v, env.lookup k = some v → k ∈ vars.map Sigma.fst := fun k v hl =>
    List.mem_map_of_mem (f := Sigma.fst) ((mem_vars_iff hvars).mpr hl)
  refine ⟨⟨?_, fun key value => ?_, fun suffix raw_value hl => ?_⟩, fun k => ⟨fun hk => ?_, ?_⟩⟩
  · exact (mem_vars_iff hvars).mp ((h.seed seed).mp hseed)
  · exact (h.old_seeds key value).trans (mem_vars_iff hvars)
  · exact h.text suffix raw_value ((mem_vars_iff hvars).mpr hl)
  · by_cases hmem : k ∈ vars.map Sigma.fst
    · exact h.cleared k hk hmem
    · rw [h.kept k fun h => hmem h.2]
      exact Option.eq_none_iff_forall_ne_some.mpr fun v hl => hmem (hall k v hl)
  · exact fun hk => h.kept k fun h => hk h.1

theorem parse_parsed (hvars : vars.Perm env.entries) :
    Parsed env ((SeedEnvVars.parse vars).runOn env) := by
  have hnodup : (([] ++ vars).map Sigma.fst).Nodup :=
    (hvars.map Sigma.fst).nodup_iff.mpr env.nodupKeys
  have hends := ends_foldlM (visited_nil env) hnodup fun entry h => (mem_vars_iff hvars).mp h
  rw [List.nil_append] at hends
  rw [SeedEnvVars.parse, Parsing.runOn_bind]
  generalize (vars.foldlM SeedEnvVars.visit (none, ∅)).runOn env = r at hends
  obtain ⟨e | found, env'⟩ := r
  · exact hends
  have hvisited : Visited env vars env' found := hends
  obtain ⟨seed_option, old_seeds⟩ := found
  cases seed_option with
  | some seed => exact hvisited.parsed hvars rfl
  | none =>
    refine ⟨.absent (Option.eq_none_iff_forall_ne_some.mpr fun raw_value hl => ?_),
      hvisited.onlySeedsTaken⟩
    obtain ⟨s, rfl⟩ := hvisited.seed_text raw_value ((mem_vars_iff hvars).mpr hl)
    cases (hvisited.seed s).mpr ((mem_vars_iff hvars).mpr hl)

end Result

end SeedEnvVars

/-- **The seeds are read as they stand in the environment**, in whatever order the system lists
its variables, and there is a result unless something is wrong with the environment. -/
theorem seedsRead (env : Environment) {vars : List EnvVar} (hvars : vars.Perm env.entries) :
    SeedEnvVars.Parsed env ((SeedEnvVars.parse vars).runOn env) ∧
      ((∃ r env', (SeedEnvVars.parse vars).runOn env = (.ok r, env')) ↔
        ∀ e : SeedEnvError, ¬e.Blames env) := by
  have hparsed := SeedEnvVars.parse_parsed hvars
  refine ⟨hparsed, ?_⟩
  generalize (SeedEnvVars.parse vars).runOn env = r at hparsed
  obtain ⟨e | r, env'⟩ := r
  · refine iff_of_false ?_ fun h => h e hparsed.1
    rintro ⟨r, env'', heq⟩
    cases heq
  · exact iff_of_true ⟨r, env', rfl⟩ hparsed.1.not_blames

/-- An environment with a seed, an old seed and something else, the seed listed last. -/
def Sample.environment : Environment :=
  ((AList.singleton (rawBytes "PATH") (rawBytes "/bin")).insert (rawBytes OLD_SEED ++ rawBytes "1")
    (rawBytes "an old phrase")).insert (rawBytes SEED) (rawBytes "a phrase")

/-- The seeds are read, and taken out. -/
theorem seedsRead_reversed : ∃ r env',
    (SeedEnvVars.parse Sample.environment.entries.reverse).runOn Sample.environment =
      (.ok r, env') ∧ SeedEnvVars.Parsed Sample.environment (.ok r, env') := by
  obtain ⟨hparsed, -⟩ := seedsRead Sample.environment (List.reverse_perm _)
  have hok : ((SeedEnvVars.parse Sample.environment.entries.reverse).runOn
      Sample.environment).1.isOk = true := by decide +kernel
  generalize (SeedEnvVars.parse Sample.environment.entries.reverse).runOn Sample.environment = p
    at hparsed hok
  obtain ⟨e | r, env'⟩ := p
  · cases hok
  · exact ⟨r, env', rfl, hparsed⟩

end Kalatori
