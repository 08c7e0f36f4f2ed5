import SafetyIsolation.Devmem.Transfers

/-! What a watch does in any number of turns: the samples it takes, the pauses between them and the
lines it prints, which are one for the first sample and one for each change.
-/

namespace SafetyIsolation.Devmem

open SafetyIsolation.Interleaving SafetyIsolation.Memory SafetyIsolation.Text

variable {rely : Contents → Contents → Prop} [IsPreorder Contents rely] {s s' : Computer}

namespace WatchOptions

variable (options : WatchOptions)

/-- The words at the watched address. -/
def samples (snapshots : List Contents) : List UInt32 :=
  snapshots.map (fun contents => word contents options.physAddr.toNat)

/-- The turns that have taken these samples: each of them has slept and then loaded the word. -/
def rounds (samples : List UInt32) : List Deed :=
  samples.flatMap (fun sample =>
    [.slept options.interval, .loaded options.physAddr.toNat sample])

theorem samples_cons (first : Contents) (rest : List Contents)
    : options.samples (first :: rest)
      = word first options.physAddr.toNat :: options.samples rest := rfl

/-- The lines of the changes, starting from a value. -/
def changes (lastVal : UInt32) : List UInt32 → Bytes
  | [] => []
  | sample :: rest =>
      (if sample ≠ lastVal then options.changed lastVal sample else []) ++ changes sample rest

/-- The text of a whole watch. -/
def session (first : UInt32) (rest : List UInt32) : Bytes :=
  options.watching ++ options.init first ++ options.changes first rest

end WatchOptions

/-- The stop test of a watch: the request is looked at, or nothing is. -/
def stopTest : (listens : Bool) → Tool Bool
  | true => call .loadStopRequested
  | false => pure false

theorem stopTest_asks {listens : Bool} {α : Type} {post : α → Computer → Prop}
    {next : Bool → Tool α}
    (rest : ∀ stops s', Beside rely s s' → (stops = true → listens = true ∧ s'.stopRequested = true)
      → Always rely (next stops) post s')
    : Always rely (stopTest listens >>= next) post s := by
  cases listens with
  | true => exact .loadStopRequested (fun s' kept => rest _ s' kept (fun stops => ⟨rfl, stops⟩))
  | false => exact rest false s (.refl s) (fun stops => absurd stops Bool.false_ne_true)

/-- What is seen later may be seen from an earlier state, too. -/
theorem pairwise_since {earlier now : Contents} {snapshots : List Contents}
    (relied : rely earlier now) (order : (now :: snapshots).Pairwise rely)
    : (earlier :: snapshots).Pairwise rely := by
  obtain ⟨later, order⟩ := List.pairwise_cons.mp order
  exact List.pairwise_cons.mpr
    ⟨fun snapshot member => trans_of rely relied (later snapshot member), order⟩

/-- A snapshot that is put before those that follow it. -/
theorem pairwise_seen {now seen : Contents} {snapshots : List Contents} (relied : rely now seen)
    (order : (seen :: snapshots).Pairwise rely)
    : (now :: seen :: snapshots).Pairwise rely := by
  refine List.pairwise_cons.mpr ⟨fun snapshot member => ?_, order⟩
  rcases List.mem_cons.mp member with rfl | member
  · exact relied
  · exact trans_of rely relied ((List.pairwise_cons.mp order).1 snapshot member)

/-- What the turns of a watch have done. -/
structure Watched (rely : Contents → Contents → Prop) (options : WatchOptions) (listens : Bool)
    (turns : Nat) (lastVal : UInt32) (s : Computer) (ended : Bool) (s' : Computer)
    : Prop where
  exists_snapshots : ∃ snapshots : List Contents,
    (s.memory :: snapshots).Pairwise rely
    ∧ Beside rely { s with
        output := s.output ++ options.changes lastVal (options.samples snapshots)
        deeds := s.deeds ++ options.rounds (options.samples snapshots) } s'
    ∧ snapshots.length ≤ turns
    ∧ (ended = false → snapshots.length = turns)
    ∧ (ended = true → listens = true ∧ s'.stopRequested = true ∨ options.singleShot = true)

/-- A turn that goes on puts its snapshot before those of the later ones. -/
theorem Watched.turn {options : WatchOptions} {listens ended : Bool} {turns : Nat}
    {lastVal : UInt32} {contents : Contents} {next : Computer} (relied : rely s.memory contents)
    (kept : Beside rely { s with
      memory := contents
      output := s.output
        ++ (if word contents options.physAddr.toNat ≠ lastVal then
              options.changed lastVal (word contents options.physAddr.toNat)
            else [])
      deeds := s.deeds
        ++ [.slept options.interval,
          .loaded options.physAddr.toNat (word contents options.physAddr.toNat)] } next)
    (later : Watched rely options listens turns (word contents options.physAddr.toNat) next ended
      s')
    : Watched rely options listens (turns + 1) lastVal s ended s' := by
  obtain ⟨drift⟩ := kept
  obtain ⟨snapshots, order, kept', most, all, stopped⟩ := later
  obtain ⟨drift'⟩ := kept'
  refine ⟨contents :: snapshots, pairwise_seen relied (pairwise_since drift.relied order), ?_,
    Nat.succ_le_succ most, fun running => congrArg Nat.succ (all running), stopped⟩
  have whole := drift.trans drift'
  rw [WatchOptions.samples_cons, WatchOptions.changes, WatchOptions.rounds, List.flatMap_cons,
    ← WatchOptions.rounds, ← List.append_assoc s.output, ← List.append_assoc s.deeds]
  exact .intro ⟨trans_of rely relied whole.relied, whole.stays⟩

omit [IsPreorder Contents rely] in
theorem Watched.mappings {options : WatchOptions} {listens ended : Bool} {turns : Nat}
    {lastVal : UInt32} (watched : Watched rely options listens turns lastVal s ended s')
    : s'.mappings = s.mappings := by
  obtain ⟨_, _, kept, _⟩ := watched
  exact kept.mappings

omit [IsPreorder Contents rely] in
theorem Watched.ending {options : WatchOptions} {listens : Bool} {turns : Nat} {lastVal : UInt32}
    (kept : Beside rely s s')
    (stopped : listens = true ∧ s'.stopRequested = true ∨ options.singleShot = true)
    : Watched rely options listens turns lastVal s true s' := by
  refine ⟨[], List.pairwise_singleton _ _, ?_, Nat.zero_le _,
    (fun running => absurd running.symm Bool.false_ne_true), fun _ => stopped⟩
  simpa [WatchOptions.samples, WatchOptions.changes, WatchOptions.rounds] using kept

/-- By induction on the turns. -/
theorem watchLoop_watched {options : WatchOptions} {held : Held} {v : PhysicalMemoryView}
    (shows : Shows options.physAddr .readOnly held v) (listens : Bool) (turns : Nat)
    (lastVal : UInt32) (s : Computer) (live : held ∈ s.mappings)
    (allows : s.Allows options.physAddr)
    : Always rely (watchLoop options v (stopTest listens) turns lastVal)
        (Watched rely options listens turns lastVal s) s := by
  induction turns generalizing lastVal s with
  | zero =>
      refine ⟨[], List.pairwise_singleton _ _, ?_, le_rfl, fun _ => rfl,
        fun ended => absurd ended Bool.false_ne_true⟩
      simpa [WatchOptions.samples, WatchOptions.changes, WatchOptions.rounds] using Beside.refl s
  | succ turns ih =>
      have goOn {contents : Contents} {next : Computer} (relied : rely s.memory contents)
          (kept : Beside rely { s with
            memory := contents
            output := s.output
              ++ (if word contents options.physAddr.toNat ≠ lastVal then
                    options.changed lastVal (word contents options.physAddr.toNat)
                  else [])
            deeds := s.deeds
              ++ [.slept options.interval,
                .loaded options.physAddr.toNat (word contents options.physAddr.toNat)] } next)
          : Always rely
              (if options.singleShot = true then pure true
                else watchLoop options v (stopTest listens) turns
                  (word contents options.physAddr.toNat))
              (Watched rely options listens (turns + 1) lastVal s) next := by
        split
        · rename_i single
          exact .turn relied kept (.ending (.refl next) (.inr single))
        · have live' : held ∈ next.mappings := kept.mappings ▸ live
          have allows' : next.Allows options.physAddr := allows.of_eq kept.unaligned
          exact (ih _ next live' allows').imp (fun _ _ later => .turn relied kept later)
      refine stopTest_asks (fun stops s₁ kept₁ requested => ?_)
      split
      · rename_i isStop
        exact .ending kept₁ (.inl (requested isStop))
      · obtain ⟨drift₁⟩ := kept₁
        refine .sleepFor (fun s₂ kept₂ => ?_)
        obtain ⟨drift₂⟩ := kept₂
        refine readAt_word shows live allows (fun contents s₃ relied kept₃ => ?_)
        obtain ⟨drift₃⟩ := kept₃
        have relied : rely s.memory contents := trans_of rely (drift₁.trans drift₂).relied relied
        dsimp only
        split
        · rename_i changed
          refine .cout (fun s₄ kept₄ => goOn relied ?_)
          obtain ⟨drift₄⟩ := kept₄
          rw [if_pos changed, List.append_cons s.deeds]
          exact .intro ((drift₃.trans drift₄).after (drift₁.trans drift₂))
        · rename_i same
          refine goOn relied ?_
          rw [if_neg same, List.append_nil, List.append_cons s.deeds]
          exact .intro (drift₃.after (drift₁.trans drift₂))

/-- What a watch has done. Its mapping is alive as long as it has not ended. -/
structure Session (rely : Contents → Contents → Prop) (options : WatchOptions) (listens : Bool)
    (turns : Nat) (s : Computer) (ended : Bool) (s' : Computer)
    : Prop where
  exists_snapshots : ∃ held first snapshots,
    held.mode = .readOnly
    ∧ held.Covers options.physAddr
    ∧ (s.memory :: first :: snapshots).Pairwise rely
    ∧ Beside rely { s with
        mappings := if ended then s.mappings else held :: s.mappings
        output := s.output
          ++ options.session (word first options.physAddr.toNat) (options.samples snapshots)
        deeds := s.deeds
          ++ .granted held
            :: .loaded options.physAddr.toNat (word first options.physAddr.toNat)
            :: options.rounds (options.samples snapshots) } s'
    ∧ snapshots.length ≤ turns
    ∧ (ended = false → snapshots.length = turns)
    ∧ (ended = true → listens = true ∧ s'.stopRequested = true ∨ options.singleShot = true)

/-- The session of a loop that starts behind the first sample, with the mapping alive. -/
theorem Session.of_watched {options : WatchOptions} {listens : Bool} {turns : Nat} {held : Held}
    {first : Contents} {next : Computer} {ended : Bool} {after : Computer} {shown : Bytes}
    (isShown : options.watching ++ options.init (word first options.physAddr.toNat) = shown)
    (isMode : held.mode = .readOnly) (covers : held.Covers options.physAddr)
    (relied : rely s.memory first)
    (kept : Beside rely { s with
      mappings := held :: s.mappings
      memory := first
      output := s.output ++ shown
      deeds := s.deeds
        ++ [.granted held,
          .loaded options.physAddr.toNat (word first options.physAddr.toNat)] } next)
    (watched : Watched rely options listens turns (word first options.physAddr.toNat) next ended
      after)
    (released : Beside rely
      { after with mappings := if ended then s.mappings else held :: s.mappings } s')
    : Session rely options listens turns s ended s' := by
  have stays : after.stopRequested = true → s'.stopRequested = true := released.stays
  obtain ⟨snapshots, order, kept', most, all, stopped⟩ := watched
  obtain ⟨drift⟩ := kept
  obtain ⟨drift'⟩ := kept'
  obtain ⟨drift''⟩ := released
  refine ⟨held, first, snapshots, isMode, covers,
    pairwise_seen relied (pairwise_since drift.relied order), ?_, most, all, fun isEnd => ?_⟩
  · have whole := drift.trans (drift'.trans drift'')
    have deeds (rounds : List Deed) : s.deeds
        ++ .granted held
          :: .loaded options.physAddr.toNat (word first options.physAddr.toNat) :: rounds
        = s.deeds
          ++ [.granted held,
            .loaded options.physAddr.toNat (word first options.physAddr.toNat)]
          ++ rounds := by
      rw [List.append_assoc]
      rfl
    dsimp only
    rw [WatchOptions.session, isShown, deeds, ← List.append_assoc s.output shown]
    exact .intro ⟨trans_of rely relied whole.relied, whole.stays⟩
  · rcases stopped isEnd with ⟨listening, requested⟩ | single
    · exact .inl ⟨listening, stays requested⟩
    · exact .inr single

theorem watchPhys32_session {options : WatchOptions} {listens : Bool} {turns : Nat} {α : Type}
    {post : α → Computer → Prop} {next : Option (Except Bytes Unit) → Tool α}
    (allows : s.Allows options.physAddr)
    (refused : ∀ error errno s', RefusalText options.physAddr devMem error
      → Beside rely { s with deeds := s.deeds ++ [.refused errno] } s'
      → Always rely (next (some (.error error))) post s')
    (finished : ∀ s', Session rely options listens turns s true s'
      → Always rely (next (some (.ok ()))) post s')
    (running : ∀ s', Session rely options listens turns s false s'
      → Always rely (next none) post s')
    : Always rely (watchPhys32 turns options (stopTest listens) >>= next) post s := by
  refine Prog.always_bind.mpr ?_
  unfold watchPhys32
  -- The texts stay closed: only that they are appended matters.
  generalize isWatching : options.watching = watching
  generalize isInit : options.init = init
  refine mapDevice_word refused (fun v held s₁ shows kept₁ => ?_)
  obtain ⟨drift₁⟩ := kept₁
  refine .cout (fun s₂ kept₂ => ?_)
  obtain ⟨drift₂⟩ := kept₂
  refine readAt_word shows List.mem_cons_self allows (fun first s₃ relied kept₃ => ?_)
  obtain ⟨drift₃⟩ := kept₃
  refine .cout (fun s₄ kept₄ => ?_)
  have relied : rely s.memory first := trans_of rely (drift₁.trans drift₂).relied relied
  have kept : Beside rely { s with
      mappings := held :: s.mappings
      memory := first
      output := s.output ++ (watching ++ init (word first options.physAddr.toNat))
      deeds := s.deeds
        ++ [.granted held,
          .loaded options.physAddr.toNat (word first options.physAddr.toNat)] } s₄ := by
    obtain ⟨drift₄⟩ := kept₄
    dsimp only
    rw [← List.append_assoc s.output, List.append_cons s.deeds]
    exact .intro ((drift₃.trans drift₄).after (drift₁.trans drift₂))
  have isShown : options.watching ++ options.init (word first options.physAddr.toNat)
      = watching ++ init (word first options.physAddr.toNat) := by
    rw [isWatching, isInit]
  have known : s₄.mappings = held :: s.mappings := kept.mappings
  have live : held ∈ s₄.mappings := known ▸ List.mem_cons_self
  have allows' : s₄.Allows options.physAddr := allows.of_eq kept.unaligned
  refine Prog.always_bind.mpr ((watchLoop_watched shows listens turns _ s₄ live allows').imp ?_)
  intro ended after watched
  have alive : after.mappings = held :: s.mappings := watched.mappings.trans known
  cases ended with
  | true =>
      refine destroy_word shows alive (fun s₅ kept₅ => ?_)
      exact finished s₅ (.of_watched isShown shows.isMode shows.covers relied kept watched kept₅)
  | false =>
      refine running after (.of_watched isShown shows.isMode shows.covers relied kept watched ?_)
      rw [if_neg Bool.false_ne_true, ← alive]
      exact .refl after

end SafetyIsolation.Devmem
