import SpscQueue.Transfer
import SpscQueue.Proofs.ExactlyOnce
import SpscQueue.Proofs.Resolution
import SpscQueue.Proofs.Integrity
import SpscQueue.Proofs.Refinement
import SpscQueue.Proofs.Snapshots
import SpscQueue.Proofs.Translation
import SpscQueue.Proofs.Handshake
import SpscQueue.Proofs.Undisturbed
import SpscQueue.Proofs.Running
import SpscQueue.Proofs.Finality
import SpscQueue.Proofs.Futility
import SpscQueue.Proofs.Rousing
import SpscQueue.Proofs.Feeding
import SpscQueue.Proofs.Logging
import SpscQueue.Proofs.Counting
import SpscQueue.Proofs.Batching
import SpscQueue.Proofs.Forcing
import SpscQueue.Proofs.Onlooker
import SpscQueue.Proofs.Lifetime
import SpscQueue.Proofs.Meantime
import SpscQueue.Proofs.Thinning
import SpscQueue.Proofs.Crossing
import SpscQueue.Proofs.Storing
