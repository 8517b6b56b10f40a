namespace ChannelFeed

variable {σ α : Type} {step : σ → α → Option σ}

/-- Takes steps as long as they are possible; the past is the states so far, each with what happened
then. -/
def replay (step : σ → α → Option σ) (past : List (σ × α)) (s : σ) :
    List α → Option (List (σ × α) × σ)
  | [] => some (past, s)
  | x :: rest =>
    match step s x with
    | some s' => replay step (past ++ [(s, x)]) s' rest
    | none => none

theorem replay_kept {R : List (σ × α) → σ → Prop}
    (hstep : ∀ past s x s', R past s → step s x = some s' → R (past ++ [(s, x)]) s')
    {past : List (σ × α)} {s : σ} {steps : List α} {result : List (σ × α) × σ} (h : R past s)
    (hr : replay step past s steps = some result) : R result.1 result.2 := by
  induction steps generalizing past s with
  | nil =>
    cases hr
    exact h
  | cons x rest ih =>
    unfold replay at hr
    split at hr
    · rename_i s' hs
      exact ih (hstep past s x s' h hs) hr
    · cases hr

theorem replay_steps {past : List (σ × α)} {s : σ} {steps : List α}
    {result : List (σ × α) × σ} (h : replay step past s steps = some result) :
    result.1.map Prod.snd = past.map Prod.snd ++ steps := by
  induction steps generalizing past s with
  | nil =>
    cases h
    simp
  | cons x rest ih =>
    unfold replay at h
    split at h
    · rw [ih h]
      simp
    · cases h

theorem replay_from {s : σ} {steps : List α} {added : List (σ × α) × σ} {earlier : List (σ × α)}
    (h : replay step earlier s steps = some added) (before : List (σ × α)) :
    replay step (before ++ earlier) s steps = some (before ++ added.1, added.2) := by
  induction steps generalizing earlier s with
  | nil =>
    cases h
    rfl
  | cons x rest ih =>
    unfold replay at h ⊢
    split at h
    · rw [List.append_assoc]
      exact ih h
    · cases h

theorem replay_append {past : List (σ × α)} {s : σ} {steps more : List α}
    {result : List (σ × α) × σ} (h : replay step past s steps = some result) :
    replay step past s (steps ++ more) = replay step result.1 result.2 more := by
  induction steps generalizing past s with
  | nil =>
    cases h
    rfl
  | cons x rest ih =>
    unfold replay at h
    rw [List.cons_append, replay]
    split at h
    · exact ih h
    · cases h

end ChannelFeed
