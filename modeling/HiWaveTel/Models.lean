import HiWaveTel.Foundation.Table
import HiWaveTel.Foundation.Text

/- The stored rows (`apps/sms/models.py`) and the dead-letter row
   (`dead_letter_queue.py`). Times are microseconds; a `CharField` is a `Str`, and
   its `max_length` is not modelled since SQLite does not enforce it on save. -/
namespace HiWaveTel
open Foundation

structure InboundSms where
  pk : Nat
  mmPath : Str
  modemIndex : Nat
  fromNumber : Str
  text : Str
  mmState : Str
  smsc : Str
  modemTimestampRaw : Str
  createdAt : Nat
  deriving DecidableEq, Repr

/-- `OutboundSms.State`. -/
inductive OutboundState where
  | created
  | sending
  | sent
  | failed
  deriving DecidableEq, Repr

structure OutboundSms where
  pk : Nat
  mmPath : Str
  modemIndex : Nat
  toNumber : Str
  text : Str
  state : OutboundState
  errorMessage : Str
  createdAt : Nat
  updatedAt : Nat
  deriving DecidableEq, Repr

/-- `WebhookDeliveryJob.Kind`. -/
inductive JobKind where
  | inbound
  | outbound
  deriving DecidableEq, Repr

/-- `WebhookDeliveryJob.Status`. -/
inductive JobStatus where
  | pending
  | processing
  | delivered
  | failed
  deriving DecidableEq, Repr

structure WebhookDeliveryJob where
  pk : Nat
  kind : JobKind
  inboundSmsId : Option Nat
  outboundSmsId : Option Nat
  status : JobStatus
  attempts : Nat
  lastError : Str
  createdAt : Nat
  updatedAt : Nat
  deliveredAt : Option Nat
  deriving DecidableEq, Repr

/-- A row of `sms_dlq`. -/
structure DlqRow where
  id : Nat
  smsPath : Str
  modemIndex : Nat
  failedAt : Nat
  retryCount : Nat
  lastError : Str
  nextRetryAt : Option Nat
  deriving DecidableEq, Repr

/-- `mm_path` is UNIQUE. -/
instance : Row InboundSms where
  pk := InboundSms.pk
  Clash a b := a.mmPath = b.mmPath
  clash_symm _ _ h := h.symm

instance : Row OutboundSms where
  pk := OutboundSms.pk
  Clash _ _ := False
  clash_symm _ _ h := h

/-- Both foreign keys are one-to-one; NULL clashes with nothing. -/
instance : Row WebhookDeliveryJob where
  pk := WebhookDeliveryJob.pk
  Clash a b := (a.inboundSmsId = b.inboundSmsId ∧ a.inboundSmsId ≠ none) ∨
    (a.outboundSmsId = b.outboundSmsId ∧ a.outboundSmsId ≠ none)
  clash_symm a b h := by
    rcases h with ⟨e, hn⟩ | ⟨e, hn⟩
    · exact Or.inl ⟨e.symm, e ▸ hn⟩
    · exact Or.inr ⟨e.symm, e ▸ hn⟩

/-- `sms_path` is UNIQUE. -/
instance : Row DlqRow where
  pk := DlqRow.id
  Clash a b := a.smsPath = b.smsPath
  clash_symm _ _ h := h.symm

@[simp] theorem inbound_pk (r : InboundSms) : Row.pk r = r.pk := rfl
@[simp] theorem outbound_pk (r : OutboundSms) : Row.pk r = r.pk := rfl
@[simp] theorem job_pk (j : WebhookDeliveryJob) : Row.pk j = j.pk := rfl
@[simp] theorem dlq_pk (r : DlqRow) : Row.pk r = r.id := rfl

theorem inbound_clash (a b : InboundSms) : Row.Clash a b ↔ a.mmPath = b.mmPath := Iff.rfl
theorem dlq_clash (a b : DlqRow) : Row.Clash a b ↔ a.smsPath = b.smsPath := Iff.rfl

end HiWaveTel
