import Jumpbox.Plugin.Display
import Jumpbox.Plugin.Telling
import Jumpbox.Rendezvous.Turns

/-! The rendezvous page shows the onion that the daemon peels, and says when its NET has been
passed on, as long as a button is pressed only when nothing is under way, the library works,
and the onions are of a kind that is peeled. -/

namespace Jumpbox.Plugin.RendezvousPage

open JsonText (Plain Value)
open Rendezvous hiding Takes Event step machine initial
open Rendezvous (Turns Settled Adopted Works workerStep_works)

/-! What goes on in the daemon by itself. -/

section
variable {ext : Ext} {c : Choice} {d d' : Rendezvous.State}

theorem works_sameOnion {w : ℕ} {pc : WorkerPc} (works : Works ext d w pc d') :
    SameOnion d d' := by
  cases works with
  | read => exact {}
  | solve =>
    unfold State.solved
    split
    · exact { mem := fun o old => Function.update_of_ne (ne_of_lt old) _ _ }
    · exact {}
  | progress => exact {}
  | finish => exact {}

theorem work_sameOnion {e : Rendezvous.Event} (worker : ofWorker e)
    (run : Rendezvous.step ext d e = some d') : SameOnion d d' := by
  cases e with
  | request => cases worker
  | worker w =>
    obtain ⟨worker, _, works⟩ := workerStep_works run
    exact works_sameOnion works
  | attempts w progress =>
    simp only [Rendezvous.step] at run
    split at run
    · cases run
      exact {}
    · cases run

def currentName (d : Rendezvous.State) : CStr :=
  if d.lCurrentOnion.isSome then rdvOnionName (currentType d) else []

theorem SameOnion.cell (h : SameOnion d d') (turns : Turns d) {o : Ptr}
    (current : d.lCurrentOnion = some o) : d'.mem o = d.mem o :=
  h.mem o (turns.below.current o current)

theorem SameOnion.currentName (h : SameOnion d d') (turns : Turns d) :
    RendezvousPage.currentName d' = RendezvousPage.currentName d := by
  have type : currentType d' = currentType d := by
    unfold currentType
    rw [h.current]
    cases current : d.lCurrentOnion with
    | none => rfl
    | some o => exact congrArg (fun cell => cell.onion.type) (h.cell turns current)
  unfold RendezvousPage.currentName
  rw [h.current, type]

theorem SameOnion.settled (h : SameOnion d d') (turns : Turns d) (settled : Settled ext d) :
    Settled ext d' := by
  intro o now isBase
  rw [h.current] at now
  rw [h.cell turns now] at isBase ⊢
  unfold Adopted
  rw [h.danced, h.adopted]
  exact settled o now isBase

structure Ready (d : Rendezvous.State) : Prop where
  peelable : Peelable d
  plain : d.lCurrentOnion.isSome → ∀ dir ∈ d.lCurrentImageDir, Plain dir

theorem SameOnion.ready (h : SameOnion d d') (turns : Turns d) (ready : Ready d) : Ready d' where
  peelable o now := by
    rw [h.current] at now
    rw [h.cell turns now]
    exact ready.peelable o now
  plain := by
    rw [h.current, h.imageDir]
    exact ready.plain

theorem querySelector_rdvOnionName : ∀ type < collection,
    (querySelector (rdvOnionName type)).isSome := by decide

theorem Ready.displayable (h : Ready d) (some_onion : d.lCurrentOnion.isSome) :
    (querySelector (currentName d)).isSome := by
  obtain ⟨o, current⟩ := Option.isSome_iff_exists.mp some_onion
  have type : currentType d < collection := by
    rw [currentType, current]
    exact (h.peelable o current).2
  rw [currentName, if_pos some_onion]
  exact querySelector_rdvOnionName _ type

theorem currentName_base (h : Ready d) {o : Ptr} (current : d.lCurrentOnion = some o) :
    currentName d = Peeler.base.name ↔ (d.mem o).onion.type = base := by
  have type : currentType d = (d.mem o).onion.type := by rw [currentType, current]
  have names : ∀ type < collection, rdvOnionName type = Peeler.base.name ↔ type = base := by
    decide
  rw [currentName, if_pos (current ▸ rfl), type]
  exact names _ (h.peelable o current).2

/-! What a request does to the daemon. -/

theorem served_eq (ext : Ext) (c : Choice) (d : Rendezvous.State) (hcl : HttpsrvClient) :
    served ext c d hcl = rdvHandle ext c d hcl ∨
      served ext c d hcl =
        rdvHandle ext c (rdvHandle ext c d hcl).state { hcl with readbody := true } := by
  unfold served
  dsimp only
  split
  · exact .inr rfl
  · exact .inl rfl

theorem turns_served (h : Turns d) (c : Choice) (hcl : HttpsrvClient) :
    Turns (served ext c d hcl).state := by
  have first : Turns (rdvHandle ext c d hcl).state := h.moves (rdvHandle_moves ext c hcl d)
  rcases served_eq ext c d hcl with same | same
  · rw [same]
    exact first
  · rw [same]
    exact first.moves (rdvHandle_moves ext c _ _)

theorem rdvReset_imageDir : ∀ dir ∈ (rdvReset c d).state.lCurrentImageDir,
    dir ∈ d.lCurrentImageDir := by
  have onward (s : Rendezvous.State) :
      (rdvPowReset s).lCurrentImageDir = s.lCurrentImageDir := by
    unfold rdvPowReset
    split <;> rfl
  intro dir now
  change dir ∈ (rdvPowReset _).lCurrentImageDir at now
  rw [onward] at now
  unfold rdvImageReset at now
  split at now
  · rw [rdvCaptchaReset_eq] at now
    exact now
  · cases now

theorem Outcome.imageDir {hcl : HttpsrvClient} (h : Outcome ext c hcl d d') :
    ∀ dir ∈ d'.lCurrentImageDir, dir ∈ d.lCurrentImageDir ∨ dir = c.imageDir := by
  have tossed (s : Rendezvous.State) : (s.tossed c).lCurrentImageDir = s.lCurrentImageDir := by
    unfold State.tossed
    rw [unlink_eq, unlink_eq]
  intro dir
  cases h with
  | reset => exact fun now => .inl (rdvReset_imageDir dir now)
  | undecrypted =>
    rw [tossed]
    exact .inl
  | refused =>
    rw [tossed]
    exact .inl
  | taken =>
    rintro ⟨⟩
    exact .inr rfl
  | _ => exact .inl

theorem served_imageDir (ext : Ext) (c : Choice) (d : Rendezvous.State) (hcl : HttpsrvClient) :
    ∀ dir ∈ (served ext c d hcl).state.lCurrentImageDir,
      dir ∈ d.lCurrentImageDir ∨ dir = c.imageDir := by
  have first := Outcome.imageDir (rdvHandle_outcome ext c hcl d)
  intro dir now
  rcases served_eq ext c d hcl with same | same
  · rw [same] at now
    exact first dir now
  · rw [same] at now
    rcases Outcome.imageDir (rdvHandle_outcome ext c _ _) dir now with old | new
    · exact first dir old
    · exact .inr new

end

/-! The texts of the daemon, as the page reads them. -/

theorem parse_imageText (path onionType : CStr) :
    ∃ robj, JsonText.parse (imageText path onionType) = some robj ∧
      robj.get "onion_type".toList = some (.string onionType) :=
  ⟨_, JsonText.parse_print _ _, rfl⟩

theorem parse_peelText (info : JsonText.Scalar) (status onionType : CStr) :
    ∃ robj, JsonText.parse (peelText info status onionType) = some robj ∧
      robj.get "onion_type".toList = some (.string onionType) ∧
      robj.get "info".toList = some info.value :=
  ⟨_, JsonText.parse_print _ _, rfl, rfl⟩

theorem onionType_of_named {reply : Reply} {robj : Value} {t : CStr}
    (parsed : JsonText.parse reply.responseText = some robj)
    (named : robj.get "onion_type".toList = some (.string t)) : reply.onionType = some t := by
  rw [Page.onionType_of_get parsed, named]

theorem rdvOnionName_ne_nil : ∀ type < collection, rdvOnionName type ≠ [] := by decide

/-! The page and the daemon. -/

structure Agree (ext : Ext) (onion : CStr) (d : Rendezvous.State) : Prop extends Ready d where
  onion : onion = currentName d
  settled : Settled ext d

structure Lag (onion : CStr) (d : Rendezvous.State) : Prop extends Ready d where
  onion : onion = Peeler.pow.name
  waits : ∃ o, d.lCurrentOnion = some o ∧ o ∉ d.hist.danced ∧ Adopted d o

def Waits (ext : Ext) (p : Page) (d : Rendezvous.State) : Call → Prop
  | .reset => p.onion = []
  | .genRequest _ _ => Agree ext p.onion d
  | .freedom uri => Agree ext p.onion d ∧ MadeWith ext d uri
  | .image _ _ => Agree ext p.onion d ∧ ∃ uri, .freedom uri ∈ p.calls ∧ MadeWith ext d uri
  | .peel action =>
    Agree ext p.onion d ∧ p.onion ≠ Peeler.base.name ∨ action = none ∧ Lag p.onion d

def Brings (ext : Ext) (d : Rendezvous.State) (reply : Reply) : Call → Prop
  | .genRequest _ _ => reply.status = 200 → MadeWith ext d reply.responseText
  | .freedom uri => MadeWith ext d uri
  | _ => True

inductive Tidings (ext : Ext) (onion : CStr) (d : Rendezvous.State) (call : Call)
    (reply : Reply) : Prop
  | silent : displayed call reply = none → Agree ext onion d → Brings ext d reply call →
      Tidings ext onion d call reply
  | current : d.lCurrentOnion.isSome → displayed call reply = some (currentName d) → Ready d →
      Settled ext d → Tidings ext onion d call reply
  | adopts {robj} : displayed call reply = some Peeler.pow.name →
      JsonText.parse reply.responseText = some robj → onward Peeler.pow.name robj = .peel →
      Lag Peeler.pow.name d → Tidings ext onion d call reply

section
variable {ext : Ext} {c : Choice} {d d' : Rendezvous.State} {onion : CStr} {p : Page}
  {call : Call}

theorem Agree.same (h : Agree ext onion d) (turns : Turns d) (same : SameOnion d d') :
    Agree ext onion d' where
  toReady := same.ready turns h.toReady
  onion := h.onion.trans (same.currentName turns).symm
  settled := same.settled turns h.settled

theorem Lag.same (h : Lag onion d) (turns : Turns d) (same : SameOnion d d') : Lag onion d' where
  toReady := same.ready turns h.toReady
  onion := h.onion
  waits := by
    unfold Adopted
    rw [same.current, same.danced, same.adopted]
    exact h.waits

theorem MadeWith.same {uri : CStr} (h : MadeWith ext d uri) (same : SameOnion d d') :
    MadeWith ext d' uri := by
  unfold MadeWith
  rw [same.password]
  exact h

theorem Waits.same (h : Waits ext p d call) (turns : Turns d) (same : SameOnion d d') :
    Waits ext p d' call := by
  cases call with
  | reset => exact h
  | genRequest => exact Agree.same h turns same
  | freedom => exact ⟨h.1.same turns same, h.2.same same⟩
  | image =>
    obtain ⟨agree, uri, listed, made⟩ := h
    exact ⟨agree.same turns same, uri, listed, made.same same⟩
  | peel =>
    rcases h with ⟨agree, away⟩ | ⟨alone, lag⟩
    · exact .inl ⟨agree.same turns same, away⟩
    · exact .inr ⟨alone, lag.same turns same⟩

theorem Tidings.same {reply : Reply} (h : Tidings ext onion d call reply) (turns : Turns d)
    (same : SameOnion d d') : Tidings ext onion d' call reply := by
  cases h with
  | silent quiet agree made =>
    refine .silent quiet (agree.same turns same) ?_
    cases call with
    | genRequest => exact fun okay => (made okay).same same
    | freedom => exact made.same same
    | _ => trivial
  | current some_onion shows ready settled =>
    rw [← same.currentName turns] at shows
    rw [← same.current] at some_onion
    exact .current some_onion shows (same.ready turns ready) (same.settled turns settled)
  | adopts shows parsed goes lag => exact .adopts shows parsed goes (lag.same turns same)

theorem replyOf_djbPresult_eq {text : CStr} {reply : Reply}
    (sent : reply ∈ replyOf (djbPresult text)) :
    reply.status = 200 ∧ reply.responseText = text := by
  obtain ⟨reply', same, okay, told⟩ := replyOf_djbPresult text
  obtain rfl := Option.some.inj (same.symm.trans sent)
  exact ⟨okay, told⟩

theorem Tells.tidings {hcl : HttpsrvClient} {text : CStr} {action : Option CStr} {reply : Reply}
    (tells : Tells d (d', some text)) (turns : Turns d) (moved : Moves ext c hcl d d')
    (some_onion : d'.lCurrentOnion.isSome) (ready : Ready d')
    (settled : d'.hist.adopted = d.hist.adopted → Settled ext d')
    (sent : reply ∈ replyOf (djbPresult text)) : Tidings ext onion d' (.peel action) reply := by
  obtain ⟨okay, told⟩ := replyOf_djbPresult_eq sent
  have shows {info : JsonText.Scalar} {status t : CStr}
      (named : reply.responseText = peelText info status t) (some_name : t ≠ []) :
      displayed (.peel action) reply = some t := by
    obtain ⟨robj, parsed, type, _⟩ := parse_peelText info status t
    rw [← named] at parsed
    simp only [displayed, okay, if_true, onionType_of_named parsed type]
    simp [some_name]
  generalize text_eq : some text = answer at tells
  cases tells with
  | current info status same =>
    have text_eq := Option.some.inj text_eq
    have name : currentName d' = rdvOnionName (currentType d') := if_pos some_onion
    refine .current some_onion ?_ ready (settled same)
    rw [name]
    refine shows (told.trans text_eq) (rdvOnionName_ne_nil _ ?_)
    obtain ⟨o, now⟩ := Option.isSome_iff_exists.mp some_onion
    rw [currentType, now]
    exact (ready.peelable o now).2
  | adopts status inner same more =>
    have text_eq := Option.some.inj text_eq
    obtain ⟨robj, parsed, type, info⟩ :=
      parse_peelText (.nat 100) status (rdvOnionName Rendezvous.pow)
    rw [← text_eq, ← told] at parsed
    refine .adopts (shows (told.trans text_eq) (by decide)) parsed ?_ ⟨ready, rfl, ?_⟩
    · simp only [onward, if_true, info]
      rfl
    · exact ⟨_, turns.adopts moved more⟩

theorem served_peel_moves (ext : Ext) (ample : Ample c) (d : Rendezvous.State)
    (action : Option CStr) : ∃ hcl, ¬asks hcl "reset".toList ∧
      Moves ext c hcl d (served ext c d (peelRequest action)).state := by
  refine ⟨{ peelRequest action with readbody := true }, ?_, ?_⟩
  · exact (by decide : ¬strcaseEq "peel".toList "reset".toList)
  · rw [served_peel_eq ample]
    exact rdvHandle_moves ext c _ d

theorem settled_rdvPeelBase {o : Ptr} (ample : Ample c) (now : d.lCurrentOnion = some o)
    (fresh : o ∉ d.hist.danced) (adopted : Adopted d o) :
    Settled ext (rdvPeelBase ext c d o).1 := by
  unfold rdvPeelBase
  rw [net, jsonLoads, ample.netLoads, if_pos rfl]
  cases parsed : ext.jsonLoads (nep (d.mem o).onion) with
  | none =>
    intro p now' _
    obtain rfl := Option.some.inj (now.symm.trans now')
    exact iff_of_false fresh fun both => by simp [parsed] at both
  | some net =>
    intro p now' _
    obtain rfl := Option.some.inj (now.symm.trans now')
    exact iff_of_true (List.mem_append_right _ List.mem_cons_self)
      ⟨adopted, congrArg Option.isSome parsed⟩

theorem Waits.served {hcl : HttpsrvClient} {reply : Reply} (reads : ReadsPeel ext)
    (ample : Ample c) (turns : Turns d) (waits : Waits ext p d call)
    (arrives : call.arrives = some hcl)
    (peelable : Peelable (RendezvousPage.served ext c d hcl).state)
    (sent : reply ∈ replyOf (RendezvousPage.served ext c d hcl).outs) :
    Tidings ext p.onion (RendezvousPage.served ext c d hcl).state call reply := by
  cases call with
  | reset =>
    cases arrives
    rw [served_reset] at peelable sent ⊢
    have none : (rdvReset c d).state.lCurrentOnion = none := by rw [rdvReset_eq]
    refine .silent rfl ⟨⟨peelable, fun some_onion => ?_⟩, ?_, fun o now => ?_⟩ trivial
    · rw [none] at some_onion
      cases some_onion
    · rw [currentName, none]
      exact waits
    · rw [none] at now
      cases now
  | genRequest server secure =>
    cases arrives
    have made := served_genRequest (s := d) ext ample server secure
    generalize RendezvousPage.served ext c d _ = h at made peelable sent ⊢
    obtain ⟨state, outs⟩ := made
    have agree : Agree ext p.onion h.state := by
      rw [state]
      exact ⟨⟨waits.peelable, waits.plain⟩, waits.onion, waits.settled⟩
    exact .silent rfl agree (outs reply sent)
  | freedom => cases arrives
  | image contentType body =>
    cases arrives
    obtain ⟨agree, _⟩ := waits
    have taken := served_image (s := d) ext ample contentType body
    generalize RendezvousPage.served ext c d _ = h at taken peelable sent ⊢
    cases taken with
    | refuses refused same =>
      exact .silent (if_neg (refused reply sent)) (agree.same turns same) trivial
    | takes current imageDir danced adopted outs =>
      obtain ⟨okay, told⟩ := replyOf_djbPresult_eq (outs ▸ sent)
      obtain ⟨robj, parsed, named⟩ := parse_imageText c.imagePath
        (rdvOnionName (currentType h.state))
      rw [← told] at parsed
      have some_onion : h.state.lCurrentOnion.isSome := current ▸ rfl
      refine .current some_onion ?_ ⟨peelable, fun _ => ?_⟩ (.new turns current danced adopted)
      · rw [displayed, if_pos okay, onionType_of_named parsed named, currentName,
          if_pos some_onion]
      · rw [imageDir]
        rintro dir ⟨⟩
        exact ample.imageDir
  | peel action =>
    cases arrives
    have dirs := served_imageDir ext c d (peelRequest action)
    obtain ⟨_, not_reset, moved⟩ := served_peel_moves ext ample d action
    have ready (some_onion : d.lCurrentOnion.isSome) (before : Ready d) :
        Ready (RendezvousPage.served ext c d (peelRequest action)).state := by
      refine ⟨peelable, fun _ dir now => ?_⟩
      rcases dirs dir now with old | rfl
      · exact before.plain some_onion dir old
      · exact ample.imageDir
    -- the base is peeled for the result of a proof of work only
    rcases waits with ⟨agree, away⟩ | ⟨rfl, lag⟩
    · have answers := served_peel ext ample action agree.peelable agree.plain
      have away (o : Ptr) (now : d.lCurrentOnion = some o) : (d.mem o).onion.type ≠ base :=
        fun isBase => away (agree.onion.trans ((currentName_base agree.toReady now).mpr isBase))
      generalize RendezvousPage.served ext c d _ = h at answers sent moved ready ⊢
      cases answers with
      | refuses => exact .silent (if_neg (djbError_refuses _ reply sent)) agree trivial
      | tells some_onion tells =>
        exact tells.tidings turns moved (moved.isSome not_reset some_onion)
          (ready some_onion agree.toReady) (agree.settled.moves turns away moved) sent
    · obtain ⟨o, now, fresh, adopted⟩ := lag.waits
      have some_onion : d.lCurrentOnion.isSome := now ▸ rfl
      obtain ⟨t, text, tells, peeled, same⟩ := served_peelAway reads ample lag.peelable
        (lag.plain some_onion) now
      have ready := ready some_onion lag.toReady
      rw [same] at sent moved ready ⊢
      refine tells.tidings turns moved (moved.isSome not_reset some_onion) ready ?_ sent
      by_cases isBase : (d.mem o).onion.type = base
      · obtain rfl := peeled isBase
        exact fun _ => settled_rdvPeelBase ample now fresh adopted
      · refine Settled.moves (fun p now' isBase' => ?_) turns (fun p now' => ?_) moved
        · obtain rfl := Option.some.inj (now.symm.trans now')
          exact absurd isBase' isBase
        · obtain rfl := Option.some.inj (now.symm.trans now')
          exact isBase

end

end Jumpbox.Plugin.RendezvousPage
