import Uptimepage.Secrets.Credentials

/-!
# Sealed channel configs

`storage/notification_channels.rs`: the whole config of a channel is sealed when a key is
configured and stored as it is serialised otherwise.
-/

namespace Uptimepage.Secrets

open Json

/-! ## Fields -/

/-- A field that must be there. -/
def text (v : Value) (name : String) : Option String := (v.get? name).bind Value.asStr?

def readTextOpt : Option Value → Option (Option String)
  | none => some none
  | some .null => some none
  | some slot => slot.asStr?.map some

/-- A field that may be missing or `null`. -/
def textOpt (v : Value) (name : String) : Option (Option String) := readTextOpt (v.get? name)

/-- A field with a default. -/
def textOr (v : Value) (name dflt : String) : Option String :=
  match v.get? name with
  | none => some dflt
  | some slot => slot.asStr?

def flagOr (v : Value) (name : String) (dflt : Bool) : Option Bool :=
  match v.get? name with
  | none => some dflt
  | some (.bool b) => some b
  | some _ => none

/-- A field that is skipped when it is not set. -/
def textOptField (name : String) : Option String → Fields
  | some s => [(name, .str s)]
  | none => []

/-! ## Configs -/

/-- A `BTreeMap`. -/
structure TextMap where
  fields : List (String × String)
  sorted : fields.Pairwise fun f g => f.1 < g.1
deriving DecidableEq

def TextMap.ofFields (fields : List (String × String)) : TextMap := ⟨mapOf fields, pairwise_mapOf⟩

def TextMap.toValue (m : TextMap) : Value := .obj (m.fields.map fun f => (f.1, .str f.2))

def textField (f : String × Value) : Option (String × String) := f.2.asStr?.map (Prod.mk f.1)

def TextMap.ofValue : Value → Option TextMap
  | .obj fields => (fields.mapM textField).map TextMap.ofFields
  | _ => none

def readMapOr (dflt : TextMap) : Option Value → Option TextMap
  | none => some dflt
  | some slot => TextMap.ofValue slot

def mapOr (v : Value) (name : String) (dflt : TextMap) : Option TextMap :=
  readMapOr dflt (v.get? name)

/-- Skipped when it is empty. -/
def mapField (name : String) (m : TextMap) : Fields :=
  if m.fields.isEmpty then [] else [(name, m.toValue)]

structure WebhookConfig where
  url : String
  headers : TextMap
  secret : Option String
deriving DecidableEq

structure SlackConfig where
  webhookUrl : String
  mention : Option String
deriving DecidableEq

structure TelegramConfig where
  botToken : String
  chatId : String
deriving DecidableEq

structure TelegramAppConfig where
  chatId : String
  chatTitle : Option String
deriving DecidableEq

structure WhatsAppConfig where
  accessToken : String
  phoneNumberId : String
  recipient : String
  templateName : String
  languageCode : Option String
deriving DecidableEq

structure WhatsAppAppConfig where
  phone : String
  profileName : Option String
deriving DecidableEq

structure DiscordConfig where
  webhookUrl : String
  mention : Option String
deriving DecidableEq

structure MsTeamsConfig where
  webhookUrl : String
deriving DecidableEq

structure GoogleChatConfig where
  webhookUrl : String
deriving DecidableEq

structure EmailConfig where
  address : String
deriving DecidableEq

structure PagerDutyConfig where
  routingKey : String
deriving DecidableEq

structure NtfyConfig where
  serverUrl : String
  topic : String
  accessToken : Option String
deriving DecidableEq

structure GotifyConfig where
  serverUrl : String
  token : String
deriving DecidableEq

structure PushoverConfig where
  token : String
  user : String
  device : Option String
  emergency : Bool
deriving DecidableEq

inductive SmsConfig
  | twilio (recipient sender accountSid authToken : String)
  | telnyx (recipient sender apiKey : String) (messagingProfileId : Option String)
  | vonage (recipient sender apiKey apiSecret : String)
  | plivo (recipient sender authId authToken : String)
  | sinch (recipient sender servicePlanId apiToken region : String)
deriving DecidableEq

structure MattermostConfig where
  webhookUrl : String
  mention : Option String
deriving DecidableEq

inductive ChannelConfig
  | webhook (config : WebhookConfig)
  | slack (config : SlackConfig)
  | telegram (config : TelegramConfig)
  | telegramApp (config : TelegramAppConfig)
  | whatsApp (config : WhatsAppConfig)
  | whatsAppApp (config : WhatsAppAppConfig)
  | discord (config : DiscordConfig)
  | msTeams (config : MsTeamsConfig)
  | googleChat (config : GoogleChatConfig)
  | email (config : EmailConfig)
  | pagerDuty (config : PagerDutyConfig)
  | ntfy (config : NtfyConfig)
  | gotify (config : GotifyConfig)
  | pushover (config : PushoverConfig)
  | sms (config : SmsConfig)
  | mattermost (config : MattermostConfig)
deriving DecidableEq

def SmsConfig.fields : SmsConfig → Fields
  | twilio recipient sender accountSid authToken =>
    [("provider", .str "twilio"), ("to", .str recipient), ("from", .str sender),
      ("account_sid", .str accountSid), ("auth_token", .str authToken)]
  | telnyx recipient sender apiKey messagingProfileId =>
    [("provider", .str "telnyx"), ("to", .str recipient), ("from", .str sender),
      ("api_key", .str apiKey)] ++ textOptField "messaging_profile_id" messagingProfileId
  | vonage recipient sender apiKey apiSecret =>
    [("provider", .str "vonage"), ("to", .str recipient), ("from", .str sender),
      ("api_key", .str apiKey), ("api_secret", .str apiSecret)]
  | plivo recipient sender authId authToken =>
    [("provider", .str "plivo"), ("to", .str recipient), ("from", .str sender),
      ("auth_id", .str authId), ("auth_token", .str authToken)]
  | sinch recipient sender servicePlanId apiToken region =>
    [("provider", .str "sinch"), ("to", .str recipient), ("from", .str sender),
      ("service_plan_id", .str servicePlanId), ("api_token", .str apiToken),
      ("region", .str region)]

def ChannelConfig.fields : ChannelConfig → Fields
  | webhook c =>
    [("type", .str "webhook"), ("url", .str c.url)] ++ mapField "headers" c.headers ++
      textOptField "secret" c.secret
  | slack c =>
    [("type", .str "slack"), ("webhook_url", .str c.webhookUrl)] ++
      textOptField "mention" c.mention
  | telegram c =>
    [("type", .str "telegram"), ("bot_token", .str c.botToken), ("chat_id", .str c.chatId)]
  | telegramApp c =>
    [("type", .str "telegram_app"), ("chat_id", .str c.chatId)] ++
      textOptField "chat_title" c.chatTitle
  | whatsApp c =>
    [("type", .str "whatsapp"), ("access_token", .str c.accessToken),
      ("phone_number_id", .str c.phoneNumberId), ("to", .str c.recipient),
      ("template_name", .str c.templateName)] ++ textOptField "language_code" c.languageCode
  | whatsAppApp c =>
    [("type", .str "whatsapp_app"), ("phone", .str c.phone)] ++
      textOptField "profile_name" c.profileName
  | discord c =>
    [("type", .str "discord"), ("webhook_url", .str c.webhookUrl)] ++
      textOptField "mention" c.mention
  | msTeams c => [("type", .str "msteams"), ("webhook_url", .str c.webhookUrl)]
  | googleChat c => [("type", .str "google_chat"), ("webhook_url", .str c.webhookUrl)]
  | email c => [("type", .str "email"), ("to", .str c.address)]
  | pagerDuty c => [("type", .str "pagerduty"), ("routing_key", .str c.routingKey)]
  | ntfy c =>
    [("type", .str "ntfy"), ("server_url", .str c.serverUrl), ("topic", .str c.topic)] ++
      textOptField "access_token" c.accessToken
  | gotify c =>
    [("type", .str "gotify"), ("server_url", .str c.serverUrl), ("token", .str c.token)]
  | pushover c =>
    [("type", .str "pushover"), ("token", .str c.token), ("user", .str c.user)] ++
      textOptField "device" c.device ++ [("emergency", .bool c.emergency)]
  | sms c => ("type", .str "sms") :: c.fields
  | mattermost c =>
    [("type", .str "mattermost"), ("webhook_url", .str c.webhookUrl)] ++
      textOptField "mention" c.mention

def ChannelConfig.toValue (config : ChannelConfig) : Value := object config.fields

def SmsConfig.ofValue (v : Value) : Option SmsConfig := do
  match ← text v "provider" with
  | "twilio" =>
    return twilio (← text v "to") (← text v "from") (← text v "account_sid")
      (← text v "auth_token")
  | "telnyx" =>
    return telnyx (← text v "to") (← text v "from") (← text v "api_key")
      (← textOpt v "messaging_profile_id")
  | "vonage" =>
    return vonage (← text v "to") (← text v "from") (← text v "api_key")
      (← text v "api_secret")
  | "plivo" =>
    return plivo (← text v "to") (← text v "from") (← text v "auth_id")
      (← text v "auth_token")
  | "sinch" =>
    return sinch (← text v "to") (← text v "from") (← text v "service_plan_id")
      (← text v "api_token") (← textOr v "region" "us")
  | _ => none

def ChannelConfig.ofValue (v : Value) : Option ChannelConfig := do
  match ← text v "type" with
  | "webhook" =>
    return webhook ⟨← text v "url", ← mapOr v "headers" (TextMap.ofFields []),
      ← textOpt v "secret"⟩
  | "slack" => return slack ⟨← text v "webhook_url", ← textOpt v "mention"⟩
  | "telegram" => return telegram ⟨← text v "bot_token", ← text v "chat_id"⟩
  | "telegram_app" =>
    return telegramApp ⟨← text v "chat_id", ← textOpt v "chat_title"⟩
  | "whatsapp" =>
    return whatsApp ⟨← text v "access_token", ← text v "phone_number_id",
      ← text v "to", ← text v "template_name", ← textOpt v "language_code"⟩
  | "whatsapp_app" =>
    return whatsAppApp ⟨← text v "phone", ← textOpt v "profile_name"⟩
  | "discord" => return discord ⟨← text v "webhook_url", ← textOpt v "mention"⟩
  | "msteams" => return msTeams ⟨← text v "webhook_url"⟩
  | "google_chat" => return googleChat ⟨← text v "webhook_url"⟩
  | "email" => return email ⟨← text v "to"⟩
  | "pagerduty" => return pagerDuty ⟨← text v "routing_key"⟩
  | "ntfy" =>
    return ntfy ⟨← textOr v "server_url" "https://ntfy.sh", ← text v "topic",
      ← textOpt v "access_token"⟩
  | "gotify" => return gotify ⟨← text v "server_url", ← text v "token"⟩
  | "pushover" =>
    return pushover ⟨← text v "token", ← text v "user", ← textOpt v "device",
      ← flagOr v "emergency" false⟩
  | "sms" => return sms (← SmsConfig.ofValue v)
  | "mattermost" => return mattermost ⟨← text v "webhook_url", ← textOpt v "mention"⟩
  | _ => none

/-! ## Sealing -/

inductive SealError
  /-- "seal channel config" -/
  | sealing (e : CryptoError)
  /-- "open channel config" -/
  | opening (e : CryptoError)
  /-- "decode channel config" -/
  | decoding
  /-- "notification channel is sealed but no credentials KEK is configured" -/
  | sealedWithoutKek
  /-- "notification channel is plaintext but a credentials KEK is configured" -/
  | plaintextWithKek
deriving DecidableEq

/-- `seal`; `nonce` is the one that is drawn. -/
def sealConfig (json : JsonText) (cipher : Option Cipher) (nonce : Nonce) (cfg : ChannelConfig) :
    Except SealError Value :=
  match cipher with
  | none => .ok cfg.toValue
  | some c =>
    match encrypt c nonce (json.toVec cfg.toValue) with
    | .ok env => .ok (wrapEnvelope env)
    | .error e => .error (.sealing e)

def decodeConfig : Option Value → Except SealError ChannelConfig
  | none => .error .decoding
  | some value =>
    match ChannelConfig.ofValue value with
    | some cfg => .ok cfg
    | none => .error .decoding

def openConfig (json : JsonText) (cipher : Option Cipher) (value : Value) :
    Except SealError ChannelConfig :=
  match cipher, envelopeStr value with
  | some c, some env =>
    match decrypt c env with
    | .ok bytes => decodeConfig (json.fromSlice bytes)
    | .error e => .error (.opening e)
  | none, none => decodeConfig (some value)
  | none, some _ => .error .sealedWithoutKek
  | some _, none => .error .plaintextWithKek

section

variable {json : JsonText} {cipher : Option Cipher} {nonce : Nonce} {v : Value} {name key : String}
  {o : Option String} {m : TextMap}

/-! ## Read back -/

@[simp] theorem lookup_textOptField :
    (textOptField key o).lookup name = if name = key then o.map .str else none := by
  cases o with
  | none => simp [textOptField]
  | some s => simp [textOptField, lookup_cons_ite]

@[simp] theorem readTextOpt_map : readTextOpt (o.map .str) = some o := by
  cases o with
  | none => rfl
  | some s => rfl

@[simp] theorem lookup_mapField :
    (mapField key m).lookup name =
      if name = key then if m.fields = [] then none else some m.toValue else none := by
  unfold mapField
  cases hm : m.fields with
  | nil => simp
  | cons f fields => simp [lookup_cons_ite]

theorem mapM_textField (fields : List (String × String)) :
    (fields.map fun f => (f.1, Value.str f.2)).mapM textField = some fields := by
  induction fields with
  | nil => rfl
  | cons f fields ih =>
    rw [List.map_cons, List.mapM_cons, ih]
    rfl

theorem TextMap.ofValue_toValue (m : TextMap) : TextMap.ofValue m.toValue = some m := by
  obtain ⟨fields, hsorted⟩ := m
  simp only [TextMap.toValue, TextMap.ofValue, mapM_textField, Option.map_some, Option.some.injEq,
    TextMap.ofFields, TextMap.mk.injEq]
  exact mapOf_of_pairwise hsorted

@[simp] theorem readMapOr_ite :
    readMapOr (TextMap.ofFields []) (if m.fields = [] then none else some m.toValue) = some m := by
  split
  · next hempty =>
    obtain ⟨fields, hsorted⟩ := m
    obtain rfl : fields = [] := hempty
    rfl
  · exact m.ofValue_toValue

theorem SmsConfig.ofValue_toValue (c : SmsConfig) :
    SmsConfig.ofValue (ChannelConfig.sms c).toValue = some c := by
  cases c with
  | _ =>
    simp [SmsConfig.ofValue, ChannelConfig.toValue, ChannelConfig.fields, SmsConfig.fields, text,
      textOpt, textOr, Value.asStr?, lookup_cons_ite]

theorem ChannelConfig.ofValue_toValue (cfg : ChannelConfig) :
    ChannelConfig.ofValue cfg.toValue = some cfg := by
  cases cfg with
  | sms c =>
    have htype : text (ChannelConfig.sms c).toValue "type" = some "sms" := by
      simp [text, toValue, fields, Value.asStr?]
    simp [ofValue, htype, c.ofValue_toValue]
  | _ =>
    simp [ofValue, toValue, fields, text, textOpt, textOr, flagOr, mapOr, Value.asStr?,
      lookup_cons_ite, List.lookup_append]

theorem envelopeStr_toValue (cfg : ChannelConfig) : envelopeStr cfg.toValue = none := by
  cases cfg with
  | sms c =>
    cases c with
    | _ =>
      simp [envelopeStr, ChannelConfig.toValue, ChannelConfig.fields, SmsConfig.fields, encKey,
        lookup_cons_ite]
  | _ =>
    simp [envelopeStr, ChannelConfig.toValue, ChannelConfig.fields, encKey, lookup_cons_ite,
      List.lookup_append]

theorem openConfig_sealConfig (hc : ∀ c, cipher = some c → c.Lawful) (cfg : ChannelConfig)
    (hread : json.ReadsBack cfg.toValue) (h : sealConfig json cipher nonce cfg = .ok v) :
    openConfig json cipher v = .ok cfg := by
  have hdecode : decodeConfig (some cfg.toValue) = .ok cfg := by
    rw [decodeConfig, cfg.ofValue_toValue]
  cases cipher with
  | none =>
    obtain rfl := Except.ok.inj h
    unfold openConfig
    rw [envelopeStr_toValue]
    exact hdecode
  | some c =>
    unfold sealConfig at h
    dsimp only at h
    split at h
    · next env henc =>
      obtain rfl := Except.ok.inj h
      obtain ⟨hdecrypt, henvelope⟩ := decrypt_encrypt (hc c rfl) henc
      unfold openConfig
      rw [envelopeStr_wrapEnvelope henvelope]
      dsimp only
      rw [hdecrypt]
      dsimp only
      rw [hread]
      exact hdecode
    · cases h

end

/-- **What is sealed can be opened, unless a text is stored as it is and begins like an
envelope.**  Checks and channel configs are opened in every setting; a string is, exactly when a
key is configured or it does not begin with `v1:`. -/
theorem sealed_opens_iff (json : JsonText) (cipher : Option Cipher)
    (hc : ∀ c, cipher = some c → c.Lawful) (raw : String) (check : CheckSpec) (cfg : ChannelConfig)
    (hslots : ∀ path ∈ credentialPaths, ∀ slot, check.toValue.get? path = some slot →
      json.ReadsBack slot)
    (hcfg : json.ReadsBack cfg.toValue) :
    ((∀ nonce stored, sealStr cipher nonce raw = .ok stored →
        openStr cipher stored = some raw) ∧
      (∀ c nonce v, cipher = some c → encryptInPlace json c nonce check.toValue = .ok v →
        decryptInPlace json c v = .ok check.toValue ∧
          (∀ nonce', encryptInPlace json c nonce' v = .ok v) ∧
          v.names = check.toValue.names ∧
          ∀ name, name ∉ credentialPaths → v.get? name = check.toValue.get? name) ∧
      ∀ nonce v, sealConfig json cipher nonce cfg = .ok v → openConfig json cipher v = .ok cfg) ↔
      (cipher = none → isEnvelope raw = false) := by
  constructor
  · rintro ⟨hopens, -, -⟩ rfl
    let nonce : Nonce := ⟨List.replicate 12 0, rfl⟩
    have hsealed : sealStr none nonce raw = .ok raw := rfl
    exact (openStr_sealStr_iff hc hsealed).mp (hopens nonce raw hsealed) rfl
  · intro hplain
    refine ⟨fun nonce stored hsealed => (openStr_sealStr_iff hc hsealed).mpr hplain, ?_, ?_⟩
    · intro c nonce v hcipher henc
      exact decryptInPlace_encryptInPlace (hc c hcipher) check hslots henc
    · intro nonce v hsealed
      exact openConfig_sealConfig hc cfg hcfg hsealed

namespace One

def mailOps : ChannelConfig := .email ⟨"ops@example.com"⟩

/-- With a key, a text that begins like an envelope is opened too. -/
theorem sealed_opens_iff_aes :
    ((∀ nonce stored, sealStr (some aes) nonce "v1:s3cret" = .ok stored →
        openStr (some aes) stored = some "v1:s3cret") ∧
      (∀ c nonce v, some aes = some c →
        encryptInPlace json c nonce (health "s3cret").toValue = .ok v →
        decryptInPlace json c v = .ok (health "s3cret").toValue ∧
          (∀ nonce', encryptInPlace json c nonce' v = .ok v) ∧
          v.names = (health "s3cret").toValue.names ∧
          ∀ name, name ∉ credentialPaths → v.get? name = (health "s3cret").toValue.get? name) ∧
      ∀ nonce v, sealConfig json (some aes) nonce mailOps = .ok v →
        openConfig json (some aes) v = .ok mailOps) ↔
      (some aes = none → isEnvelope "v1:s3cret" = false) := by
  refine sealed_opens_iff json (some aes) ?_ "v1:s3cret" (health "s3cret") mailOps ?_ ?_
  · intro c hcipher
    obtain rfl := Option.some.inj hcipher
    exact aes_lawful
  · intro path hpath slot hslot
    rw [get?_toValue _ hpath] at hslot
    obtain rfl := Option.some.inj hslot
    rcases List.mem_pair.mp hpath with rfl | rfl
    · rfl
    · rfl
  · rfl

/-- Without one it is stored as it is, and then taken for an envelope. -/
theorem stored_text_is_not_opened :
    sealStr none drawn "v1:s3cret" = .ok "v1:s3cret" ∧
      openStr none "v1:s3cret" ≠ some "v1:s3cret" := by
  decide

end One

end Uptimepage.Secrets
