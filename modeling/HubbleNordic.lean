import HubbleNordic.Mealy
import HubbleNordic.AdStructure
import HubbleNordic.Softdevice
import HubbleNordic.Advertiser.Buffer
import HubbleNordic.Advertiser.Model
import HubbleNordic.Advertiser.Spec
import HubbleNordic.Advertiser.Packet
import HubbleNordic.Advertiser.Restart
import HubbleNordic.Advertiser.Beacon
import HubbleNordic.Advertiser.Failure
import HubbleNordic.Advertiser.Steps
import HubbleNordic.Advertiser.OnAir
import HubbleNordic.Advertiser.Interleave
import HubbleNordic.Advertiser.TwoContexts
import HubbleNordic.Rollover
import HubbleNordic.Preemption
import HubbleNordic.CriticalSection
import HubbleNordic.Ownership
import HubbleNordic.Uptime.Model
import HubbleNordic.Uptime.Exact
import HubbleNordic.Uptime.Preempted
import HubbleNordic.Uptime.Prescaler
import HubbleNordic.Nonce
import HubbleNordic.NoncePeriod
import HubbleNordic.Lock.Model
import HubbleNordic.Lock.Exclusion
import HubbleNordic.Lock.Brackets
import HubbleNordic.Lock.Atomicity
import HubbleNordic.Uptime.Serial
import HubbleNordic.Decimal
import HubbleNordic.Base64
import HubbleNordic.Log
import HubbleNordic.Advertiser.Warnings
import HubbleNordic.Application.Refresh
import HubbleNordic.Application.StackInit
import HubbleNordic.Application.Firmware
import HubbleNordic.Application.Scan
import HubbleNordic.Application.Freshness
import HubbleNordic.CounterMode
import HubbleNordic.Memory
import HubbleNordic.Crypto.Model
import HubbleNordic.Crypto.Backend
import HubbleNordic.Crypto.Sessions
import HubbleNordic.Crypto.Preempted
import HubbleNordic.Crypto.Keystream
