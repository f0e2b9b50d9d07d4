import AdTerminal.Live.Written

/-! What a player shows of the frames that the encoders make, when it reads the tags that the library writes
for them. -/

namespace AdTerminal.Live

open Rtmp BigEndian Simulation SrsAvcAacCodec

instance (nalu : List UInt8) : Decidable (IsSent nalu) :=
  inferInstanceAs (Decidable (_ ∨ _ ∨ _))

/-- What is to be shown of a stream: its frames behind the parameter sets and the sound configuration that hold
for them. `guessing` tells that the player does not know yet how the units are set apart. -/
structure Shown where
  sps : List UInt8 := []
  pps : List UInt8 := []
  config : Option AdtsConfig := none
  guessing : Bool := true
  called : List PulledFrame := []

namespace Shown

/-- The configuration is that of the first frame of all. -/
def next (sound : Sound) (told : Shown) : Encoded → Shown
  | .h264 _ nalu ts =>
    if nalUnitType nalu = naluTypeSPS then { told with sps := SrsRawH264Stream.spsDemux nalu }
    else if nalUnitType nalu = naluTypePPS then { told with pps := nalu }
    -- nothing is sent before the parameter sets
    else if told.sps = [] then told
    else { told with
      guessing := if IsSent nalu ∧ nalu.length ≠ 1 then false else told.guessing
      called := told.called ++ shown told.sps told.pps nalu (ts.toNat % 2 ^ 31) }
  | .aac [] _ => told
  | .aac (frame :: frames) ts =>
    let config := told.config.getD (frame.config.announced sound)
    { told with
      config := some config
      called := told.called ++ (frame :: frames).flatMap fun frame => heard config frame (ts.toNat % 2 ^ 31) }

end Shown

/-- A frame that is sent has room in the player's buffer behind parameter sets that can be read. -/
def Acceptable (told : Shown) : Encoded → Prop
  | .h264 _ nalu _ => IsSent nalu → told.sps ≠ [] →
    Fits told.sps told.pps nalu ∧ told.sps.length < 2 ^ 16 ∧ told.pps.length < 2 ^ 16 ∧ Readable told.sps
  | .aac _ _ => True

/-- The length of a frame is not taken for a start code. -/
def Unmistaken (told : Shown) : Encoded → Prop
  | .h264 _ nalu _ => IsSent nalu → told.sps ≠ [] → told.guessing = true → ¬ (256 ≤ nalu.length ∧ nalu.length < 512)
  | .aac _ _ => True

instance (told : Shown) : DecidablePred (Acceptable told)
  | .h264 _ nalu _ => inferInstanceAs (Decidable (IsSent nalu → told.sps ≠ [] →
    11 + told.sps.length + told.pps.length + nalu.length ≤ videoPayloadSize ∧ told.sps.length < 2 ^ 16 ∧
      told.pps.length < 2 ^ 16 ∧ avcDemuxSps told.sps ≠ .error .assertion))
  | .aac _ _ => isTrue trivial

instance (told : Shown) : DecidablePred (Unmistaken told)
  | .h264 _ nalu _ => inferInstanceAs (Decidable (IsSent nalu → told.sps ≠ [] → told.guessing = true →
    ¬ (256 ≤ nalu.length ∧ nalu.length < 512)))
  | .aac _ _ => isTrue trivial

/-- Nothing of the pictures is known yet, or what the writer holds is what the player holds. -/
structure SamePictureSets (context : RawContext) (pull : AnyRtmpPull) (told : Shown) : Prop where
  sps : context.h264Sps = told.sps
  pps : context.h264Pps = told.pps
  configured : context.h264SpsChanged = false ∧ context.h264PpsChanged = false → context.h264SpsPpsSent = true →
    Configured pull.srsCodec told.sps told.pps ∧ told.sps ≠ []
  untold : context.h264SpsChanged = false ∧ context.h264PpsChanged = false → context.h264SpsPpsSent = false →
    told.sps = []
  format : told.guessing = false ↔ pull.srsCodec.payloadFormat = .ibmf

structure SameSoundConfig (context : RawContext) (pull : AnyRtmpPull) (told : Shown) : Prop where
  untold : context.aacSpecificConfig = [] → told.config = none
  tuned : context.aacSpecificConfig ≠ [] → ∃ config, told.config = some config ∧ Tuned pull.srsCodec config

/-- The player has shown what was to be shown of the frames that the writer has sent. -/
structure Follows (context : RawContext) (pull : AnyRtmpPull) (told : Shown) : Prop where
  pictures : SamePictureSets context pull told
  sound : SameSoundConfig context pull told
  called : pull.called = told.called
  videoClear : pull.videoPayload = []
  audioClear : pull.audioPayload = []
  inside : pull.overread = false

theorem shown_notSent {sps pps nalu : List UInt8} (notSent : ¬ IsSent nalu) (timestamp : Nat) :
    shown sps pps nalu timestamp = [] := by
  have idr : ¬ nalUnitType nalu = naluTypeIDR := fun type => notSent (.inl type)
  have nonIdr : ¬ nalUnitType nalu = naluTypeNonIDR := fun type => notSent (.inr (.inl type))
  rw [shown, if_neg idr, if_neg nonIdr]

theorem Shown.next_sent (sound : Sound) {told : Shown} {nalu : List UInt8} (sent : IsSent nalu)
    (some_sps : told.sps ≠ []) (zeros : Nat) (ts : UInt32) :
    told.next sound (.h264 zeros nalu ts) = { told with
      guessing := if nalu.length ≠ 1 then false else told.guessing
      called := told.called ++ shown told.sps told.pps nalu (ts.toNat % 2 ^ 31) } := by
  obtain ⟨sps, pps, -⟩ := isSent_types sent
  rw [Shown.next, if_neg sps, if_neg pps, if_neg some_sps]
  simp only [sent, true_and]

theorem sent_nonempty {nalu : List UInt8} (sent : IsSent nalu) : nalu ≠ [] := by
  rintro rfl
  revert sent
  decide

theorem Tuned.of_sameSound {codec codec' : SrsAvcAacCodec} {config : AdtsConfig} (tuned : Tuned codec config)
    (same : SameSound codec codec') : Tuned codec' config :=
  ⟨same.aacExtraData ▸ tuned.extra, same.aacObject ▸ tuned.object, same.aacSampleRate ▸ tuned.sampleRate,
    same.aacChannels ▸ tuned.channels⟩

theorem Configured.of_samePictures {codec codec' : SrsAvcAacCodec} {sps pps : List UInt8}
    (configured : Configured codec sps pps) (same : SamePictures codec codec') : Configured codec' sps pps :=
  ⟨same.extra ▸ configured.extra, same.nalUnitLength ▸ configured.nalUnitLength,
    same.spsLength ▸ configured.spsLength, same.sps ▸ configured.sps, same.ppsLength ▸ configured.ppsLength,
    fun some_bytes => same.pps ▸ configured.pps some_bytes⟩

/-- The tag of a frame that is sent is shown as it is to be shown. -/
theorem tag_shown {pull : AnyRtmpPull} {told : Shown} {nalu : List UInt8}
    (configured : Configured pull.srsCodec told.sps told.pps) (some_sps : told.sps ≠ []) (sent : IsSent nalu)
    (fits : Fits told.sps told.pps nalu) (format : told.guessing = false ↔ pull.srsCodec.payloadFormat = .ibmf)
    (plain : told.guessing = true → ¬ (256 ≤ nalu.length ∧ nalu.length < 512)) (clear : pull.videoPayload = [])
    (ts : UInt32) :
    ∃ codec, pull.gotPacket (naluTag nalu ts ts).packet = some { pull with
        srsCodec := codec, called := pull.called ++ shown told.sps told.pps nalu (ts.toNat % 2 ^ 31) } ∧
      Configured codec told.sps told.pps ∧
      ((if nalu.length ≠ 1 then false else told.guessing) = false ↔ codec.payloadFormat = .ibmf) ∧
      ∀ config, Tuned pull.srsCodec config → Tuned codec config := by
  have recognised : pull.srsCodec.payloadFormat = .ibmf ∨ ¬ (256 ≤ nalu.length ∧ nalu.length < 512) := by
    cases guess : told.guessing with
    | false => exact .inl (format.mp guess)
    | true => exact .inr (plain guess)
  refine ⟨_, gotPacket_nalu configured some_sps (sent_nonempty sent) sent fits clear ts ts recognised,
    ⟨configured.extra, configured.nalUnitLength, configured.spsLength, configured.sps, configured.ppsLength,
      configured.pps⟩, ?_, fun config tuned => ⟨tuned.extra, tuned.object, tuned.sampleRate, tuned.channels⟩⟩
  change _ ↔ formatAfter pull.srsCodec.payloadFormat nalu.length = .ibmf
  by_cases one : nalu.length = 1
  · rw [if_neg (not_not.mpr one), formatAfter, if_pos one, format]
    by_cases settled : pull.srsCodec.payloadFormat = .ibmf
    · rw [if_pos settled]
      exact iff_of_true settled rfl
    · rw [if_neg settled]
      exact iff_of_false settled (by decide)
  · rw [if_pos one, formatAfter, if_neg one]
    refine iff_of_true rfl ?_
    split <;> rfl

/-- The tag is one that RTMP carries to the other side. -/
structure Carried (tag : FlvTag) : Prop where
  type : tag.type = typeAudio ∨ tag.type = typeVideo
  nonempty : tag.data ≠ []
  small : tag.data.length < 2 ^ 24

/-- From here the player gets to there with the tags that are written between. -/
def Reaches (context context' : RawContext) (pull : AnyRtmpPull) (told : Shown) : Prop :=
  ∃ tags pull', context'.written = context.written ++ tags ∧ (∀ tag ∈ tags, Carried tag) ∧
    Transition.run AnyRtmpPull.gotPacket pull (tags.map FlvTag.packet) = some pull' ∧ Follows context' pull' told

theorem Reaches.here {context context' : RawContext} {pull : AnyRtmpPull} {told : Shown}
    (same : context'.written = context.written) (follows : Follows context' pull told) :
    Reaches context context' pull told :=
  ⟨[], pull, by rw [same, List.append_nil], fun tag member => absurd member List.not_mem_nil, rfl, follows⟩

theorem Reaches.trans {first second third : RawContext} {pull pull' : AnyRtmpPull} {told' : Shown}
    {tags : List FlvTag} (written : second.written = first.written ++ tags)
    (carried : ∀ tag ∈ tags, Carried tag)
    (read : Transition.run AnyRtmpPull.gotPacket pull (tags.map FlvTag.packet) = some pull')
    (rest : Reaches second third pull' told') : Reaches first third pull told' := by
  obtain ⟨more, pull'', written', carried', read', follows⟩ := rest
  refine ⟨tags ++ more, pull'', ?_, ?_, ?_, follows⟩
  · rw [written', written, List.append_assoc]
  · intro tag member
    exact (List.mem_append.mp member).elim (carried tag) (carried' tag)
  · rw [List.map_append, Transition.run_append, read]
    exact read'

theorem run_one {pull pull' : AnyRtmpPull} {tag : FlvTag} (read : pull.gotPacket tag.packet = some pull') :
    Transition.run AnyRtmpPull.gotPacket pull ([tag].map FlvTag.packet) = some pull' := by
  rw [List.map_singleton, Transition.run, read]
  rfl

theorem run_two {pull pull' pull'' : AnyRtmpPull} {first second : FlvTag}
    (read : pull.gotPacket first.packet = some pull') (read' : pull'.gotPacket second.packet = some pull'') :
    Transition.run AnyRtmpPull.gotPacket pull ([first, second].map FlvTag.packet) = some pull'' := by
  rw [List.map_cons, Transition.run, read]
  exact run_one read'

theorem all_one {P : FlvTag → Prop} {tag : FlvTag} (holds : P tag) : ∀ t ∈ [tag], P t := by
  intro t member
  rw [List.mem_singleton.mp member]
  exact holds

theorem all_two {P : FlvTag → Prop} {first second : FlvTag} (holds : P first) (holds' : P second) :
    ∀ t ∈ [first, second], P t := by
  intro t member
  exact (List.mem_cons.mp member).elim (fun same => same ▸ holds) (all_one holds' t)

theorem naluTag_carried {sps pps nalu : List UInt8} (fits : Fits sps pps nalu) (ts : UInt32) :
    Carried (naluTag nalu ts ts) := by
  have room : 11 + sps.length + pps.length + nalu.length ≤ 384 * 1024 := fits
  have size : (naluTag nalu ts ts).data.length = 2 + (3 + (4 + nalu.length)) := by
    change ([_, _] ++ (bigEndian 3 _ ++ (bigEndian 4 _ ++ nalu))).length = _
    rw [List.length_append, List.length_append, List.length_append, length_bigEndian, length_bigEndian]
    rfl
  exact ⟨.inr rfl, List.cons_ne_nil _ _, by omega⟩

theorem headerTag_carried {sps pps : List UInt8} (spsSmall : sps.length < 2 ^ 16) (ppsSmall : pps.length < 2 ^ 16)
    (ts : UInt32) : Carried (headerTag sps pps ts ts) := by
  have size : (headerTag sps pps ts ts).data.length = 16 + sps.length + pps.length := by
    change ([_, _] ++ (bigEndian 3 _ ++ ([_, _, _, _, _] ++ ([_] ++ (bigEndian 2 _ ++ (sps ++ ([_] ++
      (bigEndian 2 _ ++ pps)))))))).length = _
    simp only [List.length_append, length_bigEndian, List.length_cons, List.length_nil]
    omega
  exact ⟨.inr rfl, List.cons_ne_nil _ _, by omega⟩

theorem aacTag_carried {sound : Sound} (aac : sound.format = codecAudioAAC) (config : AdtsConfig) (type : UInt8)
    {data : List UInt8} (small : data.length < 2 ^ 13) (ts : UInt32) : Carried (aacTag sound config type data ts) := by
  obtain ⟨first, whole, -⟩ := aacTag_data aac config type data ts
  refine ⟨.inl rfl, ?_, ?_⟩
  · rw [whole]
    exact List.cons_ne_nil _ _
  · rw [whole, List.length_cons, List.length_cons]
    omega

/-- One unit of H.264 more. -/
theorem writes_shown (sound : Sound) {zeros : Nat} {nalu : List UInt8} {ts : UInt32} {context context' : RawContext}
    {pull : AnyRtmpPull} {told : Shown} (follows : Follows context pull told) (writes : Writes nalu ts context context')
    (acceptable : Acceptable told (.h264 zeros nalu ts)) (unmistaken : Unmistaken told (.h264 zeros nalu ts)) :
    Reaches context context' pull (told.next sound (.h264 zeros nalu ts)) := by
  obtain ⟨⟨sps, pps, configured, untold, format⟩, sounds, called, videoClear, audioClear, inside⟩ := follows
  cases writes with
  | sps type other =>
    refine .here rfl ?_
    rw [Shown.next, if_pos type]
    exact ⟨⟨rfl, pps, fun unchanged => Bool.noConfusion unchanged.1,
      fun unchanged => Bool.noConfusion unchanged.1, format⟩,
      ⟨sounds.untold, sounds.tuned⟩, called, videoClear, audioClear, inside⟩
  | pps type other =>
    have notSps : ¬ nalUnitType nalu = naluTypeSPS := by
      rw [type]
      decide
    refine .here rfl ?_
    rw [Shown.next, if_neg notSps, if_pos type]
    exact ⟨⟨sps, rfl, fun unchanged => Bool.noConfusion unchanged.2,
      fun unchanged => Bool.noConfusion unchanged.2, format⟩,
      ⟨sounds.untold, sounds.tuned⟩, called, videoClear, audioClear, inside⟩
  | nothing same samePps notSent =>
    have unmoved : told.next sound (.h264 zeros nalu ts) = told := by
      rw [Shown.next]
      split_ifs with isSps isPps none_sps sends
      · rw [← same isSps, sps]
      · rw [← samePps isPps, pps]
      · rfl
      · exact absurd sends.1 notSent
      · rw [shown_notSent notSent, List.append_nil]
    refine .here rfl ?_
    rw [unmoved]
    exact ⟨⟨sps, pps, configured, untold, format⟩, sounds, called, videoClear, audioClear, inside⟩
  | dropped sent unchanged none_sent =>
    have unmoved : told.next sound (.h264 zeros nalu ts) = told := by
      obtain ⟨notSps, notPps, -⟩ := isSent_types sent
      rw [Shown.next, if_neg notSps, if_neg notPps, if_pos (untold unchanged none_sent)]
    refine .here rfl ?_
    rw [unmoved]
    exact ⟨⟨sps, pps, configured, untold, format⟩, sounds, called, videoClear, audioClear, inside⟩
  | tag sent unchanged header_sent writable =>
    obtain ⟨held, some_sps⟩ := configured unchanged header_sent
    obtain ⟨fits, -, -, -⟩ := acceptable sent some_sps
    obtain ⟨codec, read, held', format', tuned⟩ :=
      tag_shown held some_sps sent fits format (unmistaken sent some_sps) videoClear ts
    refine ⟨[naluTag nalu ts ts], _, rfl, all_one (naluTag_carried fits ts), run_one read, ?_⟩
    rw [Shown.next_sent sound sent some_sps]
    refine ⟨⟨sps, pps, fun _ _ => ⟨held', some_sps⟩, untold, format'⟩, ⟨sounds.untold, fun config_sent => ?_⟩,
      congrArg (· ++ _) called, videoClear, audioClear, inside⟩
    obtain ⟨config, same, held_config⟩ := sounds.tuned config_sent
    exact ⟨config, same, tuned config held_config⟩
  | tags sent changed long writable =>
    have some_sps : told.sps ≠ [] := by
      intro none_sps
      rw [sps, none_sps] at long
      exact absurd long (by decide)
    rw [sps] at long
    obtain ⟨fits, spsSmall, ppsSmall, readable⟩ := acceptable sent some_sps
    obtain ⟨codec, header, held, same⟩ := gotPacket_header pull long spsSmall ppsSmall readable ts ts
    have format : told.guessing = false ↔ codec.payloadFormat = .ibmf := by
      rw [same.payloadFormat]
      exact format
    obtain ⟨codec', read, held', format', tuned⟩ :=
      @tag_shown { pull with srsCodec := codec } told nalu held some_sps sent fits format (unmistaken sent some_sps)
        videoClear ts
    refine ⟨[headerTag told.sps told.pps ts ts, naluTag nalu ts ts], _, by rw [sps, pps],
      all_two (headerTag_carried spsSmall ppsSmall ts) (naluTag_carried fits ts), run_two header read, ?_⟩
    rw [Shown.next_sent sound sent some_sps]
    refine ⟨⟨sps, pps, fun _ _ => ⟨held', some_sps⟩, fun _ unsent => Bool.noConfusion unsent, format'⟩,
      ⟨sounds.untold, fun config_sent => ?_⟩, congrArg (· ++ _) called, videoClear, audioClear, inside⟩
    obtain ⟨config, same_config, held_config⟩ := sounds.tuned config_sent
    exact ⟨config, same_config, tuned config (held_config.of_sameSound same)⟩

/-- What is heard of one frame more, under the configuration that was there or under its own. -/
def Shown.hear (sound : Sound) (ts : UInt32) (told : Shown) (frame : AdtsFrame) : Shown :=
  let config := told.config.getD (frame.config.announced sound)
  { told with config := some config, called := told.called ++ heard config frame (ts.toNat % 2 ^ 31) }

theorem foldl_hear {sound : Sound} {ts : UInt32} {config : AdtsConfig} (frames : List AdtsFrame) {told : Shown}
    (tuned : told.config = some config) :
    frames.foldl (Shown.hear sound ts) told = { told with
      called := told.called ++ frames.flatMap fun frame => heard config frame (ts.toNat % 2 ^ 31) } := by
  induction frames generalizing told with
  | nil => rw [List.flatMap_nil, List.append_nil, List.foldl_nil]
  | cons frame frames ih =>
    have first : told.hear sound ts frame =
        { told with called := told.called ++ heard config frame (ts.toNat % 2 ^ 31) } := by
      rw [Shown.hear, tuned, Option.getD_some, ← tuned]
    rw [List.foldl_cons, first, @ih { told with called := told.called ++ heard config frame (ts.toNat % 2 ^ 31) } tuned,
      List.flatMap_cons, List.append_assoc]

theorem Shown.next_aac (sound : Sound) (told : Shown) (frames : List AdtsFrame) (ts : UInt32) :
    told.next sound (.aac frames ts) = frames.foldl (Shown.hear sound ts) told := by
  cases frames with
  | nil => rfl
  | cons frame frames =>
    rw [List.foldl_cons, @foldl_hear sound ts (told.config.getD (frame.config.announced sound)) frames _ rfl, Shown.next,
      Shown.hear, List.flatMap_cons, List.append_assoc]

/-- One frame of AAC more. -/
theorem writesAac_heard {sound : Sound} (aac : sound.format = codecAudioAAC) {frame : AdtsFrame} {ts : UInt32}
    {context context' : RawContext} {pull : AnyRtmpPull} {told : Shown} (follows : Follows context pull told)
    (writes : WritesAac sound ts frame context context') : Reaches context context' pull (told.hear sound ts frame) := by
  obtain ⟨⟨sps, pps, configured, untold, format⟩, sounds, called, videoClear, audioClear, inside⟩ := follows
  have raw : frame.raw.length < 2 ^ 13 := by
    have small := frame.length_lt
    omega
  have specific : (frame.config.announced sound).specificConfig.length < 2 ^ 13 := by
    change 2 < 2 ^ 13
    decide
  cases writes with
  | first none_sent writable =>
    have fresh : told.config = none := sounds.untold none_sent
    obtain ⟨codec, header, tuned, same⟩ := gotPacket_aacHeader pull aac frame.config ts
    have read := @gotPacket_heard { pull with srsCodec := codec } sound aac frame.config frame ts _ tuned audioClear
    refine ⟨[aacTag sound frame.config audioTypeSequenceHeader (frame.config.announced sound).specificConfig ts,
      aacTag sound frame.config audioTypeRawData frame.raw ts], _, rfl,
      all_two (aacTag_carried aac _ _ specific ts) (aacTag_carried aac _ _ raw ts), run_two header read, ?_⟩
    rw [Shown.hear, fresh, Option.getD_none]
    refine ⟨⟨sps, pps, fun unchanged sent => ⟨?_, (configured unchanged sent).2⟩, untold,
      by rw [same.payloadFormat]; exact format⟩,
      ⟨fun none_left => absurd none_left (List.cons_ne_nil _ _), fun _ =>
        ⟨_, rfl, ⟨tuned.extra, tuned.object, tuned.sampleRate, tuned.channels⟩⟩⟩,
      congrArg (· ++ _) called, videoClear, audioClear, inside⟩
    obtain ⟨held, -⟩ := configured unchanged sent
    have after := held.of_samePictures same
    exact ⟨after.extra, after.nalUnitLength, after.spsLength, after.sps, after.ppsLength, after.pps⟩
  | later config_sent writable =>
    obtain ⟨config, same, tuned⟩ := sounds.tuned config_sent
    refine ⟨[aacTag sound frame.config audioTypeRawData frame.raw ts], _, rfl, all_one (aacTag_carried aac _ _ raw ts),
      run_one (gotPacket_heard aac frame.config frame ts tuned audioClear), ?_⟩
    rw [Shown.hear, same, Option.getD_some]
    refine ⟨⟨sps, pps, fun unchanged sent => ⟨?_, (configured unchanged sent).2⟩, untold, format⟩,
      ⟨fun none_left => absurd none_left config_sent, fun _ =>
        ⟨config, rfl, ⟨tuned.extra, tuned.object, tuned.sampleRate, tuned.channels⟩⟩⟩,
      congrArg (· ++ _) called, videoClear, audioClear, inside⟩
    obtain ⟨held, -⟩ := configured unchanged sent
    exact ⟨held.extra, held.nalUnitLength, held.spsLength, held.sps, held.ppsLength, held.pps⟩

theorem writesAacs_heard {sound : Sound} (aac : sound.format = codecAudioAAC) {frames : List AdtsFrame} {ts : UInt32}
    {context context' : RawContext} {pull : AnyRtmpPull} {told : Shown} (follows : Follows context pull told)
    (writes : WritesAacs sound ts frames context context') :
    Reaches context context' pull (frames.foldl (Shown.hear sound ts) told) := by
  induction writes generalizing pull told with
  | nil context => exact .here rfl follows
  | cons first rest ih =>
    obtain ⟨tags, pull', written, carried, read, follows'⟩ := writesAac_heard aac follows first
    exact .trans written carried read (ih follows')

/-- One frame of the encoders more. -/
theorem send_shown {sound : Sound} (aac : sound.format = codecAudioAAC) {encoded : Encoded}
    {context context' : RawContext} {pull : AnyRtmpPull} {told : Shown} (follows : Follows context pull told)
    (sends : encoded.data.send sound context = some context') (acceptable : Acceptable told encoded)
    (unmistaken : Unmistaken told encoded) : Reaches context context' pull (told.next sound encoded) := by
  cases encoded with
  | h264 zeros nalu ts => exact writes_shown sound follows (send_h264 sends) acceptable unmistaken
  | aac frames ts =>
    rw [Shown.next_aac]
    exact writesAacs_heard aac follows (send_aac aac sends)

/-- What is to be shown, frame by frame. -/
def Shown.step (sound : Sound) (told : Shown) (encoded : Encoded) : Option Shown :=
  some (told.next sound encoded)

/-- Many frames more. -/
theorem sends_shown {sound : Sound} (aac : sound.format = codecAudioAAC) {frames : List Encoded}
    {context context' : RawContext} {pull : AnyRtmpPull} {told : Shown} (follows : Follows context pull told)
    (sends : Transition.run (EncData.send sound) context (frames.map Encoded.data) = some context')
    (acceptable : Transition.Steps (Shown.step sound) Acceptable told frames)
    (unmistaken : Transition.Steps (Shown.step sound) Unmistaken told frames) :
    Reaches context context' pull (frames.foldl (Shown.next sound) told) := by
  induction frames generalizing context pull told with
  | nil =>
    cases sends
    exact .here rfl follows
  | cons encoded frames ih =>
    obtain ⟨context'', first, rest⟩ := Transition.run_cons sends
    obtain ⟨tags, pull', written, carried, read, follows'⟩ := send_shown aac follows first acceptable.1 unmistaken.1
    exact .trans written carried read (ih follows' rest (acceptable.2 _ rfl) (unmistaken.2 _ rfl))

theorem follows_fresh (writable : Nat) : Follows (freshContext writable) {} {} :=
  ⟨⟨rfl, rfl, fun _ sent => Bool.noConfusion sent, fun _ _ => rfl, ⟨nofun, nofun⟩⟩,
    ⟨fun _ => rfl, fun some_config => absurd rfl some_config⟩, rfl, rfl, rfl, rfl⟩

end AdTerminal.Live
