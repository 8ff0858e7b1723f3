import AstraGate.Middleware.RateLimit

-- How `_track_ip_usage` keeps the addresses that have used a virtual key.
namespace IpTracking

-- `SUSPICIOUS_IP_THRESHOLD`
def suspiciousIpThreshold : Nat :=
  10

-- `IP_TRACKING_PREFIX`
def ipTrackingPrefix : String :=
  "vk_ips:"

-- `IP_TRACKING_TTL`
def ipTrackingTtl : Time :=
  3600000

def hourWindow (now : Time) : Nat :=
  RateLimit.seconds now / 3600

def trackingKey (keyId : String) (hourWindow : Nat) : String :=
  ipTrackingPrefix ++ keyId ++ ":" ++ toString hourWindow

-- Whether a warning is logged.
def suspicious (uniqueIps : Nat) : Bool :=
  suspiciousIpThreshold < uniqueIps

theorem toList_trackingKey {keyId : String} {w : Nat} : (trackingKey keyId w).toList =
    ipTrackingPrefix.toList ++ (keyId.toList ++ ':' :: Nat.toDigits 10 w) := by
  simp [trackingKey]

-- The keys are spelled like those of the counters behind their prefix.
theorem trackingKey_inj {keyId keyId' : String} {w w' : Nat} :
    trackingKey keyId w = trackingKey keyId' w' ↔ keyId = keyId' ∧ w = w' := by
  rw [← RateLimit.buildKey_inj, ← String.toList_inj, toList_trackingKey, toList_trackingKey,
    List.append_cancel_left_eq, ← String.toList_inj, RateLimit.toList_buildKey,
    RateLimit.toList_buildKey, List.append_cancel_left_eq]

end IpTracking
